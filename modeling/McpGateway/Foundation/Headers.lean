import Mathlib.Data.List.Basic
import Mathlib.Tactic.Common

/-!
# Header lists and their mutation

A header list may repeat a name.  A mutation removes the listed names and then overwrites the set
ones, which is how a proxy applies the header changes of an external processor.  The lemmas say
which values a name has afterwards: the set one when it is set, none when it is removed, and the old
ones otherwise.
-/

namespace Http

abbrev Headers := List (String × String)

namespace Headers

variable {hs : Headers} {k k' v : String}

def values (hs : Headers) (k : String) : List String :=
  (hs.filter fun h => h.1 = k).map Prod.snd

def remove (hs : Headers) (names : List String) : Headers :=
  hs.filter fun h => !names.contains h.1

def overwrite (hs : Headers) (h : String × String) : Headers :=
  hs.filter (fun h' => h'.1 ≠ h.1) ++ [h]

lemma mem_values : v ∈ hs.values k ↔ (k, v) ∈ hs := by
  simp only [values, List.mem_map, List.mem_filter, decide_eq_true_eq]
  constructor
  · rintro ⟨⟨k', v'⟩, ⟨hmem, rfl⟩, rfl⟩
    exact hmem
  · intro hmem
    exact ⟨(k, v), ⟨hmem, rfl⟩, rfl⟩

@[simp] lemma values_overwrite_self : (hs.overwrite (k, v)).values k = [v] := by
  simp [values, overwrite, List.filter_filter]

lemma values_overwrite_ne (h : k ≠ k') : (hs.overwrite (k', v)).values k = hs.values k := by
  have hfilter : hs.filter (fun p => decide (p.1 = k) && decide (p.1 ≠ k')) =
      hs.filter fun p => p.1 = k := by
    refine List.filter_congr fun p _ => ?_
    by_cases hp : p.1 = k <;> simp [hp, h]
  simp only [values, overwrite, List.filter_append, List.filter_filter, hfilter]
  simp [Ne.symm h]

variable {names : List String}

lemma values_remove_of_mem (h : k ∈ names) : (hs.remove names).values k = [] := by
  rw [List.eq_nil_iff_forall_not_mem]
  intro v hv
  have hmem := mem_values.1 hv
  simp [remove, h] at hmem

lemma values_remove_of_not_mem (h : k ∉ names) :
    (hs.remove names).values k = hs.values k := by
  have hfilter : (hs.remove names).filter (fun p => p.1 = k) = hs.filter fun p => p.1 = k := by
    rw [remove, List.filter_filter]
    refine List.filter_congr fun p _ => ?_
    by_cases hp : p.1 = k <;> simp [hp, h]
  simp only [values, hfilter]

end Headers

structure Mutation where
  remove : List String := []
  set : List (String × String) := []

namespace Mutation

variable {m : Mutation} {hs : Headers} {k v : String}

def apply (m : Mutation) (hs : Headers) : Headers :=
  m.set.foldl Headers.overwrite (hs.remove m.remove)

variable {set : List (String × String)}

lemma values_foldl_of_not_set (h : ∀ p ∈ set, p.1 ≠ k) :
    (set.foldl Headers.overwrite hs).values k = hs.values k := by
  induction set generalizing hs with
  | nil => rfl
  | cons p rest ih =>
    rw [List.foldl_cons, ih fun q hq => h q (List.mem_cons_of_mem _ hq)]
    exact Headers.values_overwrite_ne (h p List.mem_cons_self).symm

lemma values_foldl_of_set (hmem : (k, v) ∈ set)
    (honly : ∀ p ∈ set, p.1 = k → p.2 = v) : (set.foldl Headers.overwrite hs).values k = [v] := by
  induction set generalizing hs with
  | nil => simp at hmem
  | cons p rest ih =>
    rw [List.foldl_cons]
    by_cases hrest : ∃ q ∈ rest, q.1 = k
    · -- a later entry decides
      obtain ⟨q, hq, hk⟩ := hrest
      have hv : q.2 = v := honly q (List.mem_cons_of_mem _ hq) hk
      have hq' : (k, v) ∈ rest := by rw [← hk, ← hv]; exact hq
      exact ih hq' fun q hq => honly q (List.mem_cons_of_mem _ hq)
    · have hp : p = (k, v) := by
        rcases List.mem_cons.1 hmem with heq | hin
        · exact heq.symm
        · exact absurd ⟨_, hin, rfl⟩ hrest
      subst hp
      rw [values_foldl_of_not_set fun q hq hk => hrest ⟨q, hq, hk⟩]
      exact Headers.values_overwrite_self

lemma values_apply_of_set (hmem : (k, v) ∈ m.set) (honly : ∀ p ∈ m.set, p.1 = k → p.2 = v) :
    (m.apply hs).values k = [v] :=
  values_foldl_of_set hmem honly

lemma values_apply_of_remove (hset : ∀ p ∈ m.set, p.1 ≠ k) (hrem : k ∈ m.remove) :
    (m.apply hs).values k = [] := by
  rw [apply, values_foldl_of_not_set hset, Headers.values_remove_of_mem hrem]

lemma values_apply_of_untouched (hset : ∀ p ∈ m.set, p.1 ≠ k) (hrem : k ∉ m.remove) :
    (m.apply hs).values k = hs.values k := by
  rw [apply, values_foldl_of_not_set hset, Headers.values_remove_of_not_mem hrem]

end Mutation

end Http
