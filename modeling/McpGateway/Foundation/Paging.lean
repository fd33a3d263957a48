import Mathlib.Data.List.Basic
import Mathlib.Tactic.Common

/-!
# Listings over several pages

A server answers a list request page by page: an answer names the cursor with which the next page is
asked for, and the empty cursor asks for the first page and stands for no next page.

- `PageOf` are the pages a client reaches by following the cursors.
- `Covered` says that a list holds every accepted entry of every page; `covered_iff_onFirstPage` that a
  client that reads one page gets there just when the first page already has them all.
-/

namespace Paging

variable {α β : Type}

structure Page (α : Type) where
  entries : List α
  nextCursor : String := ""

abbrev Listing (α : Type) := String → Except String (Page α)

/-- The pages that the cursors lead to. -/
inductive PageOf (L : Listing α) : Page α → Prop where
  | first {p : Page α} (h : L "" = .ok p) : PageOf L p
  | next {p q : Page α} (hp : PageOf L p) (hcursor : p.nextCursor ≠ "")
      (hq : L p.nextCursor = .ok q) : PageOf L q

def Listing.single (L : Listing α) : Except String (List α) :=
  match L "" with
  | .ok p => .ok p.entries
  | .error e => .error e

/-- Every accepted entry of every page is in the list, in the form `f` gives it.  An entry may be
nil. -/
def Covered (f : α → β) (accept : α → Prop) (L : Listing (Option α)) (ys : List β) : Prop :=
  ∀ p, PageOf L p → ∀ x, some x ∈ p.entries → accept x → f x ∈ ys

/-- Every accepted entry of every page has its like on the first one. -/
def OnFirstPage (f : α → β) (accept : α → Prop) (L : Listing (Option α)) : Prop :=
  ∀ p, PageOf L p → ∀ x, some x ∈ p.entries → accept x →
    ∃ first y, L "" = .ok first ∧ some y ∈ first.entries ∧ accept y ∧ f y = f x

lemma single_eq_ok {L : Listing α} {xs : List α} (h : L.single = .ok xs) :
    ∃ p, L "" = .ok p ∧ p.entries = xs := by
  unfold Listing.single at h
  cases hp : L "" with
  | error e => simp [hp] at h
  | ok p =>
    rw [hp] at h
    exact ⟨p, rfl, Except.ok.inj h⟩

variable {L : Listing (Option α)} {accept : α → Prop}

lemma covered_iff_onFirstPage {f : α → β}
    {xs : List (Option α)} {ys : List β} (hsingle : L.single = .ok xs) (hys : ∀ z, z ∈ ys ↔ ∃ y,
    some y ∈ xs ∧ accept y ∧ f y = z) : Covered f accept L ys ↔ OnFirstPage f accept L := by
  obtain ⟨first, hfirst, rfl⟩ := single_eq_ok hsingle
  constructor
  · intro hcovered p hp x hx haccept
    obtain ⟨y, hy, hok, heq⟩ := (hys _).1 (hcovered p hp x hx haccept)
    exact ⟨first, y, hfirst, hy, hok, heq⟩
  · intro hone p hp x hx haccept
    obtain ⟨first', y, hfirst', hy, hok, heq⟩ := hone p hp x hx haccept
    obtain rfl : first = first' := Except.ok.inj (hfirst.symm.trans hfirst')
    exact (hys _).2 ⟨y, hy, hok, heq⟩

lemma onFirstPage_of_repeats {f : α → β} {first : Page (Option α)} (hfirst : L "" = .ok first)
    (hrepeats : ∀ cursor p, L cursor = .ok p → p.entries ⊆ first.entries) :
    OnFirstPage f accept L := by
  intro p hp x hx haccept
  have hmem : some x ∈ first.entries := by
    cases hp with
    | first h => exact hrepeats _ _ h hx
    | next _ _ hq => exact hrepeats _ _ hq hx
  exact ⟨first, x, hfirst, hmem, haccept, rfl⟩

end Paging
