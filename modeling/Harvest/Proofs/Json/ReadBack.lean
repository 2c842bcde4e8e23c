import Mathlib
import Harvest.Proofs.Json.Tokens
import Harvest.Proofs.Sorting

namespace Harvest

namespace Value

@[elab_as_elim]
theorem parts_induction {motive : Value → Prop} (null : motive null) (bool : ∀ b, motive (bool b))
    (int : ∀ n, motive (int n)) (double : ∀ d, motive (double d)) (str : ∀ s, motive (str s))
    (arr : ∀ items, (∀ v ∈ items, motive v) → motive (arr items))
    (obj : ∀ members, (∀ m ∈ members, motive m.2) → motive (obj members))
    (hook : ∀ h, motive (hook h))
    (record : ∀ kind members given, (∀ m ∈ members, motive m.2) →
      motive (record kind members given)) (v : Value) : motive v := by
  refine @Value.rec motive (fun items => ∀ v ∈ items, motive v)
    (fun members => ∀ m ∈ members, motive m.2) (fun m => motive m.2)
    null bool int double str arr obj hook record ?_ ?_ ?_ ?_ (fun _ _ ih => ih) v
  · simp
  · exact fun v rest here others => List.forall_mem_cons.2 ⟨here, others⟩
  · simp
  · exact fun m rest here others => List.forall_mem_cons.2 ⟨here, others⟩

mutual

/-- The value as its canonical text shows it: members sorted by name, records as objects and hooks
as marks. -/
def ordered : Value → Value
  | arr items => arr (orderedItems items)
  | obj members | record _ members _ => obj (sortByName (orderedMembers members))
  | hook _ => str "$adjust"
  | v => v

def orderedItems : List Value → List Value
  | [] => []
  | v :: rest => ordered v :: orderedItems rest

def orderedMembers : List (String × Value) → Fields
  | [] => []
  | (k, v) :: rest => (k, ordered v) :: orderedMembers rest

end

theorem orderedItems_eq_map (items : List Value) : orderedItems items = items.map ordered := by
  induction items with
  | nil => rfl
  | cons v rest ih => rw [orderedItems, ih, List.map_cons]

theorem orderedMembers_eq_map (members : Fields) :
    orderedMembers members = members.map fun m => (m.1, ordered m.2) := by
  induction members with
  | nil => rfl
  | cons m rest ih => rw [orderedMembers, ih, List.map_cons]

theorem canonicalItems_eq_map (items : List Value) :
    canonicalItems items = items.map canonical := by
  induction items with
  | nil => rfl
  | cons v rest ih => rw [canonicalItems, ih, List.map_cons]

def entry (m : String × Value) : List Char :=
  canonicalString m.1 ++ ':' :: ' ' :: canonical m.2

theorem canonicalMembers_eq_map (members : Fields) :
    canonicalMembers members = members.map fun m => (m.1, entry m) := by
  induction members with
  | nil => rfl
  | cons m rest ih => rw [canonicalMembers, ih, List.map_cons, entry]

def listed (texts : List (List Char)) : List Char :=
  List.intercalate [',', ' '] texts

theorem listed_singleton (text : List Char) : listed [text] = text :=
  List.intercalate_singleton

theorem listed_cons (text next : List Char) (rest : List (List Char)) :
    listed (text :: next :: rest) = text ++ ',' :: ' ' :: listed (next :: rest) := by
  simp [listed, List.intercalate_cons_cons]

theorem canonical_arr (items : List Value) :
    canonical (arr items) = '[' :: (listed (items.map canonical) ++ [']']) := by
  rw [canonical, canonicalItems_eq_map, listed, List.cons_append]

theorem sorted_entries (members : Fields) :
    (sortByName (canonicalMembers members)).map (·.2) = (sortByName members).map entry := by
  rw [canonicalMembers_eq_map, sortByName_map entry members, List.map_map]
  rfl

theorem canonical_obj (members : Fields) :
    canonical (obj members) = '\x7b' :: (listed ((sortByName members).map entry) ++ ['\x7d']) := by
  rw [canonical, sorted_entries, listed, List.cons_append]

theorem ordered_arr (items : List Value) : ordered (arr items) = arr (items.map ordered) := by
  rw [ordered, orderedItems_eq_map]

theorem ordered_obj (members : Fields) :
    ordered (obj members) = obj ((sortByName members).map fun m => (m.1, ordered m.2)) := by
  rw [ordered, orderedMembers_eq_map, sortByName_map fun m => ordered m.2]

theorem get?_ordered (members : Fields) (name : String) :
    Members.get? ((sortByName members).map fun m => (m.1, ordered m.2)) name =
      (Members.get? members name).map ordered := by
  rw [get?_map fun m => ordered m.2, get?_sortByName]

end Value

namespace Json.Reader

open Value

theorem begins_canonical (v : Value) : Begins (canonical v) := by
  cases v with
  | null => exact ⟨'n', _, rfl, rfl, by decide⟩
  | bool b => cases b <;> exact ⟨_, _, rfl, rfl, by decide⟩
  | int n => exact begins_int n
  | double d => exact begins_written d
  | str s => exact ⟨'"', _, rfl, rfl, by decide⟩
  | arr items => exact ⟨'[', _, rfl, rfl, by decide⟩
  | obj members => exact ⟨'\x7b', _, rfl, rfl, by decide⟩
  | hook h => exact ⟨'"', _, rfl, rfl, by decide⟩
  | record kind members given => exact ⟨'\x7b', _, rfl, rfl, by decide⟩

/-- With enough fuel, the text of the value is read back as the value in order. -/
def ReadBack (v : Value) : Prop :=
  ∀ (fuel : Nat) (rest : List Char), (canonical v).length < fuel → Closed rest →
    value? fuel (canonical v ++ rest) = some (ordered v, rest)

theorem readBack_of_step {v : Value}
    (step : ∀ fuel rest, (canonical v).length ≤ fuel → Closed rest →
      value? (fuel + 1) (canonical v ++ rest) = some (ordered v, rest)) : ReadBack v := by
  intro fuel rest enough closed
  obtain ⟨fuel, rfl⟩ : ∃ n, fuel = n + 1 := ⟨fuel - 1, by omega⟩
  exact step fuel rest (by omega) closed

theorem value?_blank (fuel : Nat) (cs : List Char) : value? fuel (' ' :: cs) = value? fuel cs := by
  cases fuel with
  | zero => rfl
  | succ fuel =>
    have blank : skip (' ' :: cs) = skip cs := rfl
    rw [value?, value?, blank]

theorem items?_blank (fuel : Nat) (cs : List Char) : items? fuel (' ' :: cs) = items? fuel cs := by
  cases fuel with
  | zero => rfl
  | succ fuel => rw [items?, items?, value?_blank]

theorem members?_blank (fuel : Nat) (cs : List Char) :
    members? fuel (' ' :: cs) = members? fuel cs := by
  cases fuel with
  | zero => rfl
  | succ fuel =>
    have blank : skip (' ' :: cs) = skip cs := rfl
    rw [members?, members?, blank]

theorem items?_listed {items : List Value} (nonempty : items ≠ [])
    (parts : ∀ v ∈ items, ReadBack v) (fuel : Nat) (rest : List Char)
    (enough : (listed (items.map canonical)).length + 1 < fuel) :
    items? fuel (listed (items.map canonical) ++ ']' :: rest) = some (items.map ordered, rest) := by
  induction items generalizing fuel with
  | nil => exact absurd rfl nonempty
  | cons v others ih =>
    obtain ⟨fuel, rfl⟩ : ∃ n, fuel = n + 1 := ⟨fuel - 1, by omega⟩
    have here := parts v (by simp)
    rw [items?]
    cases others with
    | nil =>
      simp only [List.map_cons, List.map_nil, listed_singleton] at enough ⊢
      rw [here fuel _ (by omega) (closed_bracket _)]
      rfl
    | cons next more =>
      simp only [List.map_cons, listed_cons, List.length_append, List.length_cons,
        List.append_assoc, List.cons_append] at enough ih ⊢
      rw [here fuel _ (by omega) (closed_comma _)]
      have later := ih (by simp) (fun w member => parts w (.tail _ member)) fuel (by omega)
      simp [skip, isSpace, items?_blank, later]

theorem members?_entry {fuel : Nat} {name : String} {v w : Value} {tail : List Char}
    (here : value? fuel (canonical v ++ tail) = some (w, tail)) :
    members? (fuel + 1) (entry (name, v) ++ tail) =
      match skip tail with
      | ',' :: rest => (members? fuel rest).map fun more => ((name, w) :: more.1, more.2)
      | '\x7d' :: rest => some ([(name, w)], rest)
      | _ => none := by
  have text : entry (name, v) ++ tail =
      '"' :: ((name.toList.map Char.toNat).flatMap escapePoint ++
        '"' :: ':' :: ' ' :: (canonical v ++ tail)) := by
    simp [entry, canonicalString, canonicalPoints]
  have quote cs : skip ('"' :: cs) = '"' :: cs := rfl
  have colon cs : skip (':' :: cs) = ':' :: cs := rfl
  simp only [text, members?, quote, string?_canonicalString, colon, value?_blank, here,
    Option.bind_eq_bind, Option.bind_some]
  rcases skip tail with _ | ⟨c, rest⟩
  · rfl
  · split <;> simp_all [Option.map_eq_bind]

theorem members?_listed {members : Fields} (nonempty : members ≠ [])
    (parts : ∀ m ∈ members, ReadBack m.2) (fuel : Nat) (rest : List Char)
    (enough : (listed (members.map entry)).length + 1 < fuel) :
    members? fuel (listed (members.map entry) ++ '\x7d' :: rest) =
      some (members.map fun m => (m.1, ordered m.2), rest) := by
  induction members generalizing fuel with
  | nil => exact absurd rfl nonempty
  | cons m others ih =>
    obtain ⟨fuel, rfl⟩ : ∃ n, fuel = n + 1 := ⟨fuel - 1, by omega⟩
    obtain ⟨name, v⟩ := m
    have here : ReadBack v := parts (name, v) (by simp)
    have longer : (canonical v).length + 2 ≤ (entry (name, v)).length := by
      simp only [entry, List.length_append, List.length_cons]
      omega
    cases others with
    | nil =>
      simp only [List.map_cons, List.map_nil, listed_singleton] at enough ⊢
      rw [members?_entry (here fuel _ (by omega) (closed_brace _))]
      rfl
    | cons next more =>
      simp only [List.map_cons, listed_cons, List.length_append, List.length_cons,
        List.append_assoc, List.cons_append] at enough ih ⊢
      have later := ih (by simp) (fun w member => parts w (.tail _ member)) fuel (by omega)
      rw [members?_entry (here fuel _ (by omega) (closed_comma _))]
      simp [skip, isSpace, members?_blank, later]

theorem value?_string (fuel : Nat) (s : String) (rest : List Char) :
    value? (fuel + 1) (canonicalString s ++ rest) = some (.str s, rest) := by
  have quote cs : skip ('"' :: cs) = '"' :: cs := rfl
  simp only [canonicalString, canonicalPoints, List.cons_append, List.append_assoc,
    List.nil_append, value?, quote, string?_canonicalString]
  rfl

theorem begins_listed_canonical (v : Value) (others : List Value) :
    Begins (listed ((v :: others).map canonical)) := by
  cases others with
  | nil =>
    rw [List.map_cons, List.map_nil, listed_singleton]
    exact begins_canonical v
  | cons next more =>
    rw [List.map_cons, List.map_cons, listed_cons]
    exact begins_append (begins_canonical v) _

theorem value?_items {items : List Value} (parts : ∀ v ∈ items, ReadBack v) :
    ReadBack (arr items) := by
  refine readBack_of_step fun fuel rest enough closed => ?_
  have bracket cs : skip ('[' :: cs) = '[' :: cs := rfl
  rw [canonical_arr] at enough ⊢
  simp only [List.length_cons, List.length_append, List.length_nil] at enough
  simp only [List.cons_append, List.append_assoc, List.nil_append, value?, bracket]
  cases items with
  | nil => rfl
  | cons v others =>
    have read := items?_listed (by simp) parts fuel rest (by omega)
    -- a list with items is told from an empty one by what its text begins with
    have start := begins_append (begins_listed_canonical v others) (']' :: rest)
    rw [skip_of_begins start]
    obtain ⟨c, tail, text, -, other⟩ := start
    rw [text] at read ⊢
    split
    next same => exact absurd (List.cons.inj same).1 other
    next => simp [read, ordered_arr]

theorem begins_listed_entry (m : String × Value) (others : Fields) :
    ∃ tail, listed ((m :: others).map entry) = '"' :: tail := by
  cases others with
  | nil => exact ⟨_, listed_singleton _⟩
  | cons next more => exact ⟨_, listed_cons _ _ _⟩

theorem value?_members {members : Fields} (parts : ∀ m ∈ members, ReadBack m.2) :
    ReadBack (obj members) := by
  refine readBack_of_step fun fuel rest enough closed => ?_
  have brace cs : skip ('\x7b' :: cs) = '\x7b' :: cs := rfl
  have parts : ∀ m ∈ sortByName members, ReadBack m.2 :=
    fun m member => parts m ((sortByName_perm members).mem_iff.1 member)
  rw [canonical_obj] at enough ⊢
  simp only [List.length_cons, List.length_append, List.length_nil] at enough
  simp only [List.cons_append, List.append_assoc, List.nil_append, value?, brace, ordered_obj]
  cases sorted : sortByName members with
  | nil => rfl
  | cons m others =>
    rw [sorted] at parts enough
    have read := members?_listed (by simp) parts fuel rest (by omega)
    obtain ⟨tail, text⟩ := begins_listed_entry m others
    have quote cs : skip ('"' :: cs) = '"' :: cs := rfl
    rw [text] at read ⊢
    simp only [List.cons_append, quote] at read ⊢
    simp [read]

/-- The canonical text of a value is read back as the value in order. -/
theorem value?_canonical (v : Value) : ReadBack v := by
  induction v using parts_induction with
  | null => exact readBack_of_step fun _ _ _ _ => rfl
  | bool b => exact readBack_of_step fun _ _ _ _ => by cases b <;> rfl
  | int n => exact readBack_of_step fun fuel _ _ closed => value?_int fuel n closed
  | double d => exact readBack_of_step fun fuel _ _ closed => value?_double fuel d closed
  | str s => exact readBack_of_step fun fuel rest _ _ => value?_string fuel s rest
  | arr items parts => exact value?_items parts
  | obj members parts => exact value?_members parts
  | hook h => exact readBack_of_step fun fuel rest _ _ => value?_string fuel "$adjust" rest
  | record kind members given parts => exact value?_members parts

end Json.Reader

/-- Values with the same canonical text are equal in order. -/
theorem Value.ordered_eq_of_canonical_eq {v w : Value} (same : canonical v = canonical w) :
    ordered v = ordered w := by
  have left := Json.Reader.value?_canonical v _ [] (Nat.lt_succ_self _) Json.Reader.closed_nil
  have right := Json.Reader.value?_canonical w _ [] (Nat.lt_succ_self _) Json.Reader.closed_nil
  rw [same, right] at left
  exact congrArg Prod.fst (Option.some.inj left).symm

end Harvest
