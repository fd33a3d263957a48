import Mathlib.Data.List.Basic
import Mathlib.Tactic.Common

/-!
# A register that is written once

The first claim of a free register takes it, every later one is told who has, until it is released.  A
history is the list of what the calls on one register were told, in the order in which they took effect.

- `Legal s h`: the history `h` is one of the register, started with the owner `s`.
- `Era` is what a history without a release looks like: nothing but failures until one claim takes the
  register, and then everyone is told its owner.  `Legal.era` says that it always looks like this.
-/

namespace WriteOnce

variable {P : Type}

inductive Act (P : Type) where
  /-- who has the register after the claim of `p`, and whether this claim took it -/
  | claim (p owner : P) (created : Bool)
  | read (owner : Option P)
  | release
  /-- a claim that gave up on a register it had found taken, and that was free by then -/
  | giveUp
  deriving DecidableEq, Repr

namespace Act

def next (s : Option P) : Act P → Option P
  | claim _ owner true => some owner
  | claim _ _ false | read _ | giveUp => s
  | release => none

/-- What a call can be told when the owner is `s`. -/
def Fits (s : Option P) : Act P → Prop
  | claim p owner created =>
    match s with
    | none => created = true ∧ owner = p
    | some q => created = false ∧ owner = q
  | read r => r = s
  | release => True
  | giveUp => s = none

end Act

/-- A history of the register from the owner `s` on. -/
def Legal : Option P → List (Act P) → Prop
  | _, [] => True
  | s, a :: h => a.Fits s ∧ Legal (a.next s) h

def ownerAfter (s : Option P) (h : List (Act P)) : Option P := h.foldl Act.next s

variable {s : Option P} {h h' : List (Act P)} {a : Act P}

lemma legal_append : Legal s (h ++ h') ↔ Legal s h ∧ Legal (ownerAfter s h) h' := by
  induction h generalizing s with
  | nil => simp [Legal, ownerAfter]
  | cons a h ih =>
    rw [List.cons_append, Legal, ih, Legal, and_assoc]
    rfl

lemma legal_concat : Legal s (h ++ [a]) ↔ Legal s h ∧ a.Fits (ownerAfter s h) := by
  rw [legal_append]
  simp [Legal]

lemma ownerAfter_concat : ownerAfter s (h ++ [a]) = a.next (ownerAfter s h) :=
  List.foldl_append

def IsMiss (a : Act P) : Prop := a = .read none ∨ a = .giveUp

/-- The call was told that `p` has the register. -/
def Names (p : P) (a : Act P) : Prop := (∃ p', a = .claim p' p false) ∨ a = .read (some p)

/-- A history without a release: nobody has the register, or exactly one claim takes it and everyone
after it is told so. -/
def Era (h : List (Act P)) : Prop :=
  (∀ a ∈ h, IsMiss a) ∨ ∃ before p after, h = before ++ .claim p p true :: after ∧
    (∀ a ∈ before, IsMiss a) ∧ ∀ a ∈ after, Names p a

lemma Legal.names {p : P} (hl : Legal (some p) h) (hr : .release ∉ h) : ∀ a ∈ h, Names p a := by
  induction h with
  | nil => exact fun a ha => absurd ha List.not_mem_nil
  | cons a h ih =>
    obtain ⟨hfits, hrest⟩ := hl
    rw [List.mem_cons, not_or] at hr
    -- the call leaves the owner as it is
    have hkeeps : Names p a ∧ a.next (some p) = some p := by
      cases a with
      | claim q owner created =>
        obtain ⟨rfl, rfl⟩ := hfits
        exact ⟨.inl ⟨q, rfl⟩, rfl⟩
      | read r => exact ⟨.inr (congrArg _ hfits), rfl⟩
      | release => exact absurd rfl hr.1
      | giveUp => cases hfits
    rw [hkeeps.2] at hrest
    intro b hb
    rcases List.mem_cons.1 hb with rfl | hb
    · exact hkeeps.1
    · exact ih hrest hr.2 b hb

lemma ownerAfter_some {p : P} (hl : Legal (some p) h) (hr : .release ∉ h) :
    ownerAfter (some p) h = some p := by
  have hnames := hl.names hr
  clear hl hr
  induction h with
  | nil => rfl
  | cons a h ih =>
    rw [List.forall_mem_cons] at hnames
    have hnext : a.next (some p) = some p := by
      rcases hnames.1 with ⟨p', rfl⟩ | rfl
      · rfl
      · rfl
    rw [ownerAfter, List.foldl_cons, hnext]
    exact ih hnames.2

lemma Legal.era (hl : Legal none h) (hr : .release ∉ h) : Era h := by
  induction h with
  | nil => exact .inl fun a ha => absurd ha List.not_mem_nil
  | cons a h ih =>
    obtain ⟨hfits, hrest⟩ := hl
    rw [List.mem_cons, not_or] at hr
    -- a miss at the front of an era
    have hcons : IsMiss a → a.next none = none → Era (a :: h) := by
      intro hmiss hnext
      rw [hnext] at hrest
      rcases ih hrest hr.2 with hall | ⟨before, p, after, rfl, hbefore, hafter⟩
      · exact .inl (List.forall_mem_cons.2 ⟨hmiss, hall⟩)
      · exact .inr ⟨a :: before, p, after, rfl, List.forall_mem_cons.2 ⟨hmiss, hbefore⟩, hafter⟩
    cases a with
    | claim p owner created =>
      obtain ⟨rfl, rfl⟩ := hfits
      exact .inr ⟨[], owner, h, rfl, (fun a ha => absurd ha List.not_mem_nil), hrest.names hr.2⟩
    | read r =>
      obtain rfl : r = none := hfits
      exact hcons (.inl rfl) rfl
    | release => exact absurd rfl hr.1
    | giveUp => exact hcons (.inr rfl) rfl

lemma Legal.stretch {pre block post : List (Act P)} (hl : Legal none (pre ++ block ++ post))
    (hpre : pre = [] ∨ ∃ pre', pre = pre' ++ [.release]) (hr : .release ∉ block) : Era block := by
  have hblock := (legal_append.1 (legal_append.1 hl).1).2
  have hfree : ownerAfter (none : Option P) pre = none := by
    rcases hpre with rfl | ⟨pre', rfl⟩
    · rfl
    · exact ownerAfter_concat
  rw [hfree] at hblock
  exact hblock.era hr

end WriteOnce
