import Mathlib
import Harvest.Pagination.Strategy
import Harvest.Proofs.Identity
import Harvest.Proofs.Wording

namespace Harvest

theorem Members.put_put {α : Type} (ms : List (String × α)) (key : String) (first second : α) :
    put (put ms key first) key second = put ms key second := by
  induction ms with
  | nil => simp [put]
  | cons m rest ih =>
    obtain ⟨k, v⟩ := m
    by_cases here : k = key
    · simp [put, here]
    · simp [put, here, ih]

namespace Value

variable {members : Fields} {name : String} {v w : Value}

theorem fullMembers_put : fullMembers (Members.put members name v) =
    Members.put (fullMembers members) name v.full := by
  induction members with
  | nil => rfl
  | cons m rest ih =>
    obtain ⟨key, u⟩ := m
    by_cases here : key = name
    · simp [Members.put, fullMembers, here]
    · simp [Members.put, fullMembers, here, ih]

theorem areWritableMembers_put (before : areWritableMembers members = true) :
    areWritableMembers (Members.put members name v) = v.isWritable := by
  induction members with
  | nil => simp [Members.put, areWritableMembers]
  | cons m rest ih =>
    obtain ⟨key, u⟩ := m
    simp only [areWritableMembers, Bool.and_eq_true] at before
    by_cases here : key = name
    · simp [Members.put, here, areWritableMembers, before.2]
    · simp [Members.put, here, areWritableMembers, before.1, ih before.2]

theorem isWritable_full_int {n : Int} :
    (int n).full.isWritable = true ↔ n.natAbs < 10 ^ Text.digitLimit :=
  isWritable_int_iff

theorem canonicalMembers_put_congr (same : canonical v = canonical w) :
    canonicalMembers (Members.put members name v) =
      canonicalMembers (Members.put members name w) := by
  induction members with
  | nil => simp [Members.put, canonicalMembers, same]
  | cons m rest ih =>
    obtain ⟨key, u⟩ := m
    by_cases here : key = name
    · simp [Members.put, here, canonicalMembers, same]
    · simp [Members.put, here, canonicalMembers, ih]

end Value

namespace Call

def carrying (c : Call) (name : String) (v : Value) : Call :=
  { c with queryArgs := Members.put c.queryArgs name v }

variable {c d : Call} {name : String} {v w : Value}

theorem carrying_carrying : (c.carrying name v).carrying name w = c.carrying name w := by
  simp only [carrying, Members.put_put]

theorem get?_carrying : Members.get? (c.carrying name v).queryArgs name = some v :=
  Members.get?_put_self _ _ _

theorem isWritable_carrying (written : c.isWritable = true) :
    (c.carrying name v).isWritable = v.full.isWritable := by
  simp only [isWritable, data, members, Value.full, Value.fullMembers, Value.isWritable,
    Value.areWritableMembers, Bool.and_eq_true] at written
  obtain ⟨-, method, queryArgs, headers, body, -⟩ := written
  simp only [isWritable, data, members, carrying, Value.full, Value.fullMembers, Value.isWritable,
    Value.areWritableMembers, Value.fullMembers_put, Value.areWritableMembers_put queryArgs, method,
    headers, body, Bool.true_and, Bool.and_true]

theorem fingerprint_carrying_congr (same : v.full.canonical = w.full.canonical) :
    (c.carrying name v).fingerprint = (c.carrying name w).fingerprint := by
  rw [fingerprint_eq_iff_canonical_eq]
  simp only [data, members, carrying, Value.full, Value.fullMembers, Value.fullMembers_put]
  simp only [Value.canonical, Value.canonicalMembers, Value.canonicalMembers_put_congr same]

theorem fingerprint_carrying_eq_iff (left : v.IsData) (right : w.IsData) :
    (c.carrying name v).fingerprint = (c.carrying name w).fingerprint ↔ v.Alike w := by
  have full := fun {u : Value} (json : u.IsData) => Value.full_of_isJson u json.isJson
  constructor
  · intro same
    have argument := queryArg_ordered_of_fingerprint_eq same name
    simp only [get?_carrying, Option.map_some, Option.some.injEq, full left, full right] at argument
    exact Value.alike_of_ordered_eq left right argument
  · intro alike
    apply fingerprint_carrying_congr
    rw [full left, full right]
    exact Value.canonical_eq_of_alike alike left right

theorem fingerprint_ne_carrying (absent : Members.get? c.queryArgs name = none) :
    c.fingerprint ≠ (d.carrying name v).fingerprint := by
  intro same
  have argument := queryArg_ordered_of_fingerprint_eq same name
  rw [absent, get?_carrying] at argument
  cases argument

end Call

theorem Pagination.withArgument_eq_carrying {call : Call} {name : String} (free : name ≠ "current")
    (v : Value) : withArgument call (.str name) v = .ok (call.carrying name v) := by
  rw [withArgument, if_neg (by simpa using free)]
  rfl

end Harvest
