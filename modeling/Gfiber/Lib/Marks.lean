import Mathlib.Data.List.Induction

/-! The last opening element of a list that a closing one follows, found in one pass that keeps
two places. A place is what lies before the element. -/

set_option autoImplicit false

namespace Gfiber.Lib

variable {Item : Type}

/-- The last place that is still open, and the last one that was closed. -/
structure Marks (Item : Type) where
  last : Option (List Item)
  before : Option (List Item)

namespace Marks

/-- A closing element closes the place that is open, and an opening one opens its own. -/
def note (marks : Marks Item) (seen : List Item) (opens closes : Bool) : Marks Item :=
  if closes ∧ marks.last.isSome then ⟨none, marks.last⟩
  else if opens then ⟨some seen, marks.before⟩
  else marks

end Marks

section Places

variable (opens closes : Item → Bool)

def Opened (front items : List Item) : Prop :=
  ∃ item rest, items = front ++ item :: rest ∧ opens item = true

/-- An opening element lies at the place, and a closing one somewhere behind it. -/
def Followed (front items : List Item) : Prop :=
  ∃ item rest, items = front ++ item :: rest ∧ opens item = true ∧ ∃ other ∈ rest, closes other = true

structure LastFollowed (front items : List Item) : Prop where
  followed : Followed opens closes front items
  last : ∀ other, Followed opens closes other items → other.length ≤ front.length

/-- What the places are that are kept. -/
structure Noted (items : List Item) (marks : Marks Item) : Prop where
  opened : ∀ front, marks.last = some front → Opened opens front items ∧
    ∀ other, Opened opens other items → other.length ≤ front.length
  closed : marks.last = none → ∀ front, Opened opens front items → Followed opens closes front items
  found : ∀ front, marks.before = some front → LastFollowed opens closes front items
  absent : marks.before = none → ∀ front, ¬Followed opens closes front items

variable {opens closes} {items front rest : List Item} {item last : Item} {marks : Marks Item}

theorem snoc_eq_append_cons : items ++ [last] = front ++ item :: rest ↔
    (front = items ∧ item = last ∧ rest = []) ∨
      ∃ tail, rest = tail ++ [last] ∧ items = front ++ item :: tail := by
  constructor
  · intro whole
    cases rest using List.reverseRecOn with
    | nil =>
        obtain ⟨same, equal⟩ := List.append_inj' whole rfl
        exact .inl ⟨same.symm, (List.singleton_inj.mp equal).symm, rfl⟩
    | append_singleton tail other =>
        rw [← List.cons_append, ← List.append_assoc] at whole
        obtain ⟨same, equal⟩ := List.append_inj' whole rfl
        exact .inr ⟨tail, by rw [List.singleton_inj.mp equal], same⟩
  · intro either
    cases either with
    | inl here =>
        obtain ⟨same, equal, empty⟩ := here
        rw [same, equal, empty]
    | inr before =>
        obtain ⟨tail, same, whole⟩ := before
        rw [whole, same, List.append_assoc, List.cons_append]

theorem opened_snoc : Opened opens front (items ++ [last]) ↔
    Opened opens front items ∨ front = items ∧ opens last = true := by
  constructor
  · intro opened
    obtain ⟨item, rest, whole, opening⟩ := opened
    cases snoc_eq_append_cons.mp whole with
    | inl here => exact .inr ⟨here.1, here.2.1 ▸ opening⟩
    | inr before =>
        obtain ⟨tail, -, earlier⟩ := before
        exact .inl ⟨item, tail, earlier, opening⟩
  · intro either
    cases either with
    | inl before =>
        obtain ⟨item, rest, whole, opening⟩ := before
        exact ⟨item, rest ++ [last], snoc_eq_append_cons.mpr (.inr ⟨rest, rfl, whole⟩), opening⟩
    | inr here => exact ⟨last, [], here.1 ▸ rfl, here.2⟩

theorem followed_snoc : Followed opens closes front (items ++ [last]) ↔
    Followed opens closes front items ∨ Opened opens front items ∧ closes last = true := by
  constructor
  · intro followed
    obtain ⟨item, rest, whole, opening, other, member, closing⟩ := followed
    cases snoc_eq_append_cons.mp whole with
    | inl here => simp [here.2.2] at member
    | inr before =>
        obtain ⟨tail, same, earlier⟩ := before
        rw [same] at member
        cases List.mem_append.mp member with
        | inl inside => exact .inl ⟨item, tail, earlier, opening, other, inside, closing⟩
        | inr at_end =>
            have equal := List.mem_singleton.mp at_end
            exact .inr ⟨⟨item, tail, earlier, opening⟩, equal ▸ closing⟩
  · intro either
    cases either with
    | inl before =>
        obtain ⟨item, rest, whole, opening, other, member, closing⟩ := before
        exact ⟨item, rest ++ [last], snoc_eq_append_cons.mpr (.inr ⟨rest, rfl, whole⟩), opening,
          other, List.mem_append_left _ member, closing⟩
    | inr closed =>
        obtain ⟨⟨item, rest, whole, opening⟩, closing⟩ := closed
        exact ⟨item, rest ++ [last], snoc_eq_append_cons.mpr (.inr ⟨rest, rfl, whole⟩), opening,
          last, by simp, closing⟩

theorem Opened.shorter (opened : Opened opens front items) : front.length < items.length := by
  obtain ⟨item, rest, whole, -⟩ := opened
  rw [whole, List.length_append, List.length_cons]
  omega

theorem Followed.opened (followed : Followed opens closes front items) : Opened opens front items := by
  obtain ⟨item, rest, whole, opening, -⟩ := followed
  exact ⟨item, rest, whole, opening⟩

theorem noted_nil : Noted opens closes [] ⟨none, none⟩ where
  opened := fun _ impossible => (by cases impossible)
  closed := fun _ _ opened => absurd opened.shorter (Nat.not_lt_zero _)
  found := fun _ impossible => (by cases impossible)
  absent := fun _ _ followed => absurd followed.opened.shorter (Nat.not_lt_zero _)

/-- One more element, that does not both open and close. -/
theorem Noted.note (noted : Noted opens closes items marks)
    (exclusive : ¬(opens last = true ∧ closes last = true)) :
    Noted opens closes (items ++ [last]) (marks.note items (opens last) (closes last)) := by
  unfold Marks.note
  by_cases closing : closes last = true
  · have shut : ¬opens last = true := fun opening => exclusive ⟨opening, closing⟩
    have same (front : List Item) : Opened opens front (items ++ [last]) ↔ Opened opens front items :=
      opened_snoc.trans (or_iff_left fun here => shut here.2)
    have all (front : List Item) (opened : Opened opens front (items ++ [last])) :
        Followed opens closes front (items ++ [last]) :=
      followed_snoc.mpr (.inr ⟨(same front).mp opened, closing⟩)
    cases open_place : marks.last with
    | some place =>
        obtain ⟨opened, latest⟩ := noted.opened place open_place
        rw [if_pos ⟨closing, rfl⟩]
        refine ⟨fun _ impossible => (by cases impossible), fun _ => all, ?_, fun impossible => (by cases impossible)⟩
        intro front here
        cases here
        exact ⟨all place ((same place).mpr opened), fun other followed =>
          latest other ((same other).mp followed.opened)⟩
    | none =>
        have closed := noted.closed open_place
        have unchanged (front : List Item) : Followed opens closes front (items ++ [last]) ↔
            Followed opens closes front items :=
          followed_snoc.trans ⟨fun either => either.elim id fun open_one => closed front open_one.1,
            .inl⟩
        rw [if_neg (by simp), if_neg shut]
        refine ⟨fun front here => absurd (here.symm.trans open_place) (by simp), fun _ => all, ?_, ?_⟩
        · intro front here
          obtain ⟨followed, latest⟩ := noted.found front here
          exact ⟨(unchanged front).mpr followed, fun other later => latest other ((unchanged other).mp later)⟩
        · intro none front followed
          exact noted.absent none front ((unchanged front).mp followed)
  · have unchanged (front : List Item) : Followed opens closes front (items ++ [last]) ↔
        Followed opens closes front items :=
      followed_snoc.trans (or_iff_left fun here => closing here.2)
    have found (front : List Item) (here : marks.before = some front) :
        LastFollowed opens closes front (items ++ [last]) := by
      obtain ⟨followed, latest⟩ := noted.found front here
      exact ⟨(unchanged front).mpr followed, fun other later => latest other ((unchanged other).mp later)⟩
    have absent (none : marks.before = none) (front : List Item) :
        ¬Followed opens closes front (items ++ [last]) :=
      fun followed => noted.absent none front ((unchanged front).mp followed)
    rw [if_neg fun both => closing both.1]
    by_cases opening : opens last = true
    · rw [if_pos opening]
      refine ⟨?_, fun impossible => (by cases impossible), found, absent⟩
      intro front here
      cases here
      refine ⟨opened_snoc.mpr (.inr ⟨rfl, opening⟩), fun other opened => ?_⟩
      cases opened_snoc.mp opened with
      | inl before => exact Nat.le_of_lt before.shorter
      | inr same => exact same.1 ▸ Nat.le_refl _
    · have same (front : List Item) : Opened opens front (items ++ [last]) ↔ Opened opens front items :=
        opened_snoc.trans (or_iff_left fun here => opening here.2)
      rw [if_neg opening]
      refine ⟨?_, ?_, found, absent⟩
      · intro front here
        obtain ⟨opened, latest⟩ := noted.opened front here
        exact ⟨(same front).mpr opened, fun other later => latest other ((same other).mp later)⟩
      · intro none front opened
        exact (unchanged front).mpr (noted.closed none front ((same front).mp opened))

end Places

end Gfiber.Lib
