import McpGateway.Foundation.Go

/-!
# The key space of Redis

A key holds a hash or a string.  A command on a key that holds the other kind of value is refused and has
no effect; a missing key counts as an empty hash, and a hash that loses its last field is gone, which
`Keyspace` carries as a field.  Keys do not expire here.

`hset_spec` and `hdel_spec` say what the two commands that change a hash leave, in terms of `hgetall`;
`contains_iff` says when a key is there.
-/

namespace Redis

open Go

inductive Value where
  | hash (m : GoMap String)
  | string (s : String)
  deriving DecidableEq

/-- A hash without fields is no value: the key is gone. -/
def Value.Proper : Value → Prop
  | .hash m => m.entries ≠ []
  | .string _ => True

lemma Value.proper_hash {m : GoMap String} (h : m.entries ≠ []) : (Value.hash m).Proper := h

lemma Value.proper_insert (f v : String) (m : GoMap String) : (Value.hash (AList.insert f v m)).Proper :=
  List.cons_ne_nil _ _

structure Keyspace where
  keys : GoMap Value
  proper : ∀ k v, keys.lookup k = some v → v.Proper

def wrongType : String := "WRONGTYPE Operation against a key holding the wrong kind of value"

namespace Keyspace

def empty : Keyspace := ⟨∅, by simp⟩

variable (r : Keyspace)

def value (key : String) : Option Value := r.keys.lookup key

def put (key : String) (v : Value) (hv : v.Proper) : Keyspace where
  keys := AList.insert key v r.keys
  proper := by
    intro k w hk
    rw [lookup_insert] at hk
    split_ifs at hk
    · cases hk
      exact hv
    · exact r.proper k w hk

def drop (key : String) : Keyspace where
  keys := AList.erase key r.keys
  proper := by
    intro k w hk
    rw [lookup_erase] at hk
    split_ifs at hk
    exact r.proper k w hk

/-! ## Commands -/

/-- `EXISTS key`. -/
def contains (key : String) : Bool := (r.value key).isSome

/-- `HGETALL key`. -/
def hgetall (key : String) : Except String (GoMap String) :=
  match r.value key with
  | none => .ok ∅
  | some (.hash m) => .ok m
  | some (.string _) => .error wrongType

/-- `HGET key f`. -/
def hget (key f : String) : Except String (Option String) := do
  let m ← r.hgetall key
  .ok (m.lookup f)

/-- `HSET key f v`. -/
def hset (key f v : String) : Except String Keyspace := do
  let m ← r.hgetall key
  .ok (r.put key (.hash (AList.insert f v m)) (Value.proper_insert f v m))

/-- `HDEL key f`. -/
def hdel (key f : String) : Except String Keyspace := do
  let m ← r.hgetall key
  if h : (AList.erase f m).entries = [] then .ok (r.drop key)
  else .ok (r.put key (.hash (AList.erase f m)) (Value.proper_hash h))

/-- `GET key`. -/
def get (key : String) : Except String (Option String) :=
  match r.value key with
  | none => .ok none
  | some (.string s) => .ok (some s)
  | some (.hash _) => .error wrongType

/-- `SET key s`, which replaces a value of any kind. -/
def set (key s : String) : Keyspace := r.put key (.string s) trivial

/-- `SET key s NX`: whether the key was missing and is now set. -/
def setNX (key s : String) : Bool × Keyspace :=
  if r.contains key then (false, r) else (true, r.set key s)

/-- `DEL key ...`, which takes at least one key. -/
def del : List String → Except String Keyspace
  | [] => .error "ERR wrong number of arguments for 'del' command"
  | keys => .ok (keys.foldl drop r)

/-! ## What a command leaves -/

variable {r} {key k f v : String} {m : GoMap String}

lemma value_put {x : Value} {hx : x.Proper} :
    (r.put key x hx).value k = if k = key then some x else r.value k :=
  lookup_insert ..

lemma value_set {s : String} : (r.set key s).value k = if k = key then some (.string s) else r.value k :=
  lookup_insert ..

lemma value_drop : (r.drop key).value k = if k = key then none else r.value k :=
  lookup_erase ..

@[simp] lemma value_empty : empty.value k = none := rfl

lemma value_drops (keys : List String) :
    (keys.foldl drop r).value k = if k ∈ keys then none else r.value k := by
  induction keys generalizing r with
  | nil => simp
  | cons key keys ih =>
    rw [foldl_cons, ih, value_drop]
    by_cases hk : k = key <;> by_cases hrest : k ∈ keys <;> simp [hk, hrest]

lemma hgetall_congr {r' : Keyspace} (h : r'.value k = r.value k) : r'.hgetall k = r.hgetall k := by
  unfold hgetall
  rw [h]

lemma contains_iff (h : r.hgetall key = .ok m) : r.contains key = true ↔ m.entries ≠ [] := by
  unfold hgetall at h
  unfold contains
  split at h
  next hnone =>
    cases h
    simp [hnone]
  next hsome =>
    cases h
    have hproper : m.entries ≠ [] := r.proper key _ hsome
    simp [hsome, hproper]
  next => cases h

lemma hset_spec (h : r.hgetall key = .ok m) : ∃ r', r.hset key f v = .ok r' ∧
    r'.hgetall key = .ok (AList.insert f v m) ∧ ∀ k, k ≠ key → r'.value k = r.value k := by
  refine ⟨r.put key (.hash (AList.insert f v m)) (Value.proper_insert f v m), ?_, ?_, ?_⟩
  · simp only [hset, h, bind, Except.bind]
  · simp only [hgetall, value_put, if_true]
  · intro k hk
    rw [value_put, if_neg hk]

lemma hdel_spec (h : r.hgetall key = .ok m) : ∃ r', r.hdel key f = .ok r' ∧
    r'.hgetall key = .ok (AList.erase f m) ∧ ∀ k, k ≠ key → r'.value k = r.value k := by
  by_cases hlast : (AList.erase f m).entries = []
  · refine ⟨r.drop key, ?_, ?_, ?_⟩
    · simp only [hdel, h, bind, Except.bind, dif_pos hlast]
    · simp only [hgetall, value_drop, if_true]
      exact congrArg Except.ok (AList.ext hlast.symm)
    · intro k hk
      rw [value_drop, if_neg hk]
  · refine ⟨r.put key (.hash (AList.erase f m)) (Value.proper_hash hlast), ?_, ?_, ?_⟩
    · simp only [hdel, h, bind, Except.bind, dif_neg hlast]
    · simp only [hgetall, value_put, if_true]
    · intro k hk
      rw [value_put, if_neg hk]

end Keyspace

end Redis
