import Gfiber.Jsonpoll.PollerProperties

/-! Which answers a pass gets through, and the lines that are written for them. -/

set_option autoImplicit false

namespace Gfiber.Jsonpoll

open Lib

section Specification

def Line.text (str : Json → List (Fin 128)) (line : Line) : List Nat :=
  line.name ++ 61 :: match line.value with
    | .str text => text
    | value => (str value).map Fin.val

/-- The leaves that are texts are ASCII, and so are all keys that lead to leaves. -/
def Plain (root : Json) : Prop :=
  ∀ path value, root.Leaf path value →
    (∀ key ∈ path, allAscii key = true) ∧ strRaises value = false

/-- No answer at all, `null`, or an object without other characters than those of ASCII. -/
def Harmless : Reply → Prop
  | .timeout => True
  | .urlError => True
  | .body (some .null) => True
  | .body (some (.dict entries)) => Plain (.dict entries)
  | _ => False

/-- No operation on a file raises when an object is stored in it. -/
def Quiet (pass : Pass) : Option Json → List Path → Prop
  | _, [] => True
  | last, path :: paths =>
      match pass.reply path with
      | .body (some response) =>
          if response.truthy = true ∧ (last.any fun last => last.equal response) = false then
            pass.files path ≠ .raises ∧ Quiet pass (some response) paths
          else Quiet pass last paths
      | _ => Quiet pass last paths

end Specification

section Lines

variable {entries : List (List Nat × Json)} {base : List Nat} {out lines : List Line}

end Lines

section Requests

variable {pass : Pass} {path : Path} {poller : Poller} {reply : Reply} {paths : List Path}

end Requests

section Survival

end Survival

end Gfiber.Jsonpoll
