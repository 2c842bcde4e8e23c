import Mathlib.Data.List.Basic
import Harvest.Proofs.Outcomes
import Harvest.Value.Path

namespace Harvest

namespace Text

theorem isDecimal_of_lt {c : Char} (ascii : c.toNat < 128) : isDecimal c = c.isDigit := by
  have table : ∀ n < 128, (decimalZeros.find? fun first => first ≤ n && n < first + 10).isSome =
      (decide (48 ≤ n) && decide (n ≤ 57)) := by
    decide +kernel
  have range : c.isDigit = (decide (48 ≤ c.toNat) && decide (c.toNat ≤ 57)) := by
    simp only [Char.isDigit, ge_iff_le, UInt32.le_iff_toNat_le]
    rfl
  rw [range, ← table c.toNat ascii]
  simp [isDecimal, decimalValue?]

theorem isDigit_of_lt {c : Char} (ascii : c.toNat < 128) : isDigit c = c.isDigit := by
  have table : ∀ n < 128, inRanges typographicDigitRanges n = false := by
    decide +kernel
  rw [isDigit, isDecimal_of_lt ascii, table c.toNat ascii, Bool.or_false]

theorem grouped_digits {cs : List Char} (nonempty : cs ≠ []) (digits : ∀ c ∈ cs, isDigit c = true) :
    grouped decimalValue? cs =
      if cs.all isDecimal then some (cs.filterMap decimalValue?) else none := by
  induction cs with
  | nil => exact absurd rfl nonempty
  | cons c rest ih =>
    cases rest with
    | nil => cases value : decimalValue? c <;> simp [grouped, isDecimal, value]
    | cons d rest =>
      -- Only an underscore is passed over between digits, and it is no digit itself.
      have other : d ≠ '_' := by
        rintro rfl
        have here := digits '_' (by simp)
        revert here
        decide +kernel
      have later := ih (by simp) fun e member => digits e (List.mem_cons_of_mem c member)
      have step : grouped decimalValue? (c :: d :: rest) =
          (do return (← decimalValue? c) :: (← grouped decimalValue? (d :: rest))) := by
        rw [grouped]
        · rintro ⟨⟩
        · rintro _ ⟨⟩
          exact other rfl
      rw [step, later]
      generalize d :: rest = tail
      cases value : decimalValue? c with
      | none => simp [isDecimal, value]
      | some n =>
        have here : isDecimal c = true := by simp [isDecimal, value]
        rw [List.all_cons, here, Bool.true_and, List.filterMap_cons, value]
        split <;> rfl

theorem natOf?_grouped_eq_none_iff {cs : List Char} (nonempty : cs ≠ [])
    (digits : ∀ c ∈ cs, isDigit c = true) :
    (grouped decimalValue? cs).bind natOf? = none ↔
      cs.all isDecimal = false ∨ digitLimit < cs.length := by
  rw [grouped_digits nonempty digits]
  by_cases decimal : cs.all isDecimal = true
  · have length : (cs.filterMap decimalValue?).length = cs.length :=
      List.filterMap_length_eq_length.2 (List.all_eq_true.1 decimal)
    rw [if_pos decimal, Option.bind_some, natOf?, length]
    simp [decimal]
  · rw [if_neg decimal, Option.bind_none]
    simp [decimal]

end Text

namespace Value

variable {v : Value} {parts : List String} {part : String} {fault : PathFault}

theorem index?_eq_error_iff (index : isIndexText part = true) :
    index? part = .error fault ↔ fault = .unreadableIndex part ∧
      (part.toList.all Text.isDecimal = false ∨ Text.digitLimit < part.toList.length) := by
  simp only [isIndexText, Bool.and_eq_true, bne_iff_ne, ne_eq, List.all_eq_true] at index
  have nonempty : part.toList ≠ [] := by simpa using index.1
  rw [← Text.natOf?_grouped_eq_none_iff nonempty index.2, index?]
  cases (Text.grouped Text.decimalValue? part.toList).bind Text.natOf? <;> simp [eq_comm]

theorem child_eq_error_iff : child v part = .error fault ↔
    ∃ items, v = .arr items ∧ isIndexText part = true ∧ index? part = .error fault := by
  cases v with
  | arr items =>
    cases index : isIndexText part <;> cases read : index? part <;>
      simp [child, index, read, Except.map]
  | _ => simp [child]

/-- A path cannot be followed exactly if it leads to a list and goes on with digits that are no
number. -/
theorem follow_eq_error_iff : follow v parts = .error fault ↔
    ∃ front part rest items, parts = front ++ part :: rest ∧
      follow v front = .ok (some (.arr items)) ∧ isIndexText part = true ∧
      index? part = .error fault := by
  constructor
  · intro failed
    induction parts generalizing v with
    | nil => cases failed
    | cons part rest ih =>
      unfold follow at failed
      split at failed
      next here =>
        cases failed
        obtain ⟨items, rfl, index, unreadable⟩ := child_eq_error_iff.1 here
        exact ⟨[], part, rest, items, rfl, rfl, index, unreadable⟩
      next => cases failed
      next next here =>
        obtain ⟨front, last, behind, items, rfl, found, index, unreadable⟩ := ih failed
        refine ⟨part :: front, last, behind, items, rfl, ?_, index, unreadable⟩
        rw [follow, here]
        exact found
  · rintro ⟨front, part, rest, items, rfl, found, index, unreadable⟩
    have stuck : child (.arr items) part = .error fault :=
      child_eq_error_iff.2 ⟨items, rfl, index, unreadable⟩
    rw [follow_append, found]
    simp only [follow, stuck]

/-- What passes from a value to its parts passes to whatever is found in it. -/
theorem follow_inherits {P : Value → Prop} (items : ∀ vs, P (.arr vs) → ∀ u ∈ vs, P u)
    (members : ∀ ms, P (.obj ms) → ∀ m ∈ ms, P m.2) (here : P v) {u : Value}
    (found : follow v parts = .ok (some u)) : P u := by
  induction parts generalizing v with
  | nil =>
    cases found
    exact here
  | cons part rest ih =>
    unfold follow at found
    split at found
    next => cases found
    next => cases found
    next next child =>
      refine ih ?_ found
      cases v with
      | obj ms => exact members ms here _ (Members.mem_of_get? (Except.ok.inj child))
      | arr vs =>
        cases index : isIndexText part <;> cases read : index? part <;>
          simp [Value.child, index, read, Except.map] at child
        exact items vs here _ (List.mem_of_getElem? child)
      | _ => simp [Value.child] at child

theorem lookup_eq_error_iff {path : String} : lookup v path = .error fault ↔
    ∃ front part rest items, splitPath path = front ++ part :: rest ∧
      follow v front = .ok (some (.arr items)) ∧ isIndexText part = true ∧
      index? part = .error fault :=
  follow_eq_error_iff

theorem mem_intercalate {α : Type} {sep cs : List α} {pieces : List (List α)} {c : α}
    (member : cs ∈ pieces) (inside : c ∈ cs) : c ∈ sep.intercalate pieces := by
  induction pieces with
  | nil => cases member
  | cons head rest ih =>
    cases rest with
    | nil => simpa [List.mem_singleton.1 member] using inside
    | cons next rest =>
      rw [List.intercalate_cons_cons, List.mem_append, List.mem_append]
      rcases List.mem_cons.1 member with rfl | later
      · exact .inl (.inl inside)
      · exact .inr (ih later)

theorem mem_of_mem_splitPath {path : String} (member : part ∈ splitPath path) {c : Char}
    (inside : c ∈ part.toList) : c ∈ path.toList := by
  obtain ⟨cs, among, rfl⟩ := List.mem_map.1 member
  rw [String.toList_ofList] at inside
  have joined : ['.'].intercalate (path.toList.splitOn '.') = path.toList :=
    List.intercalate_splitOn '.'
  rw [← joined]
  exact mem_intercalate among inside

theorem splitPath_joined (front back : String) :
    splitPath (front ++ "." ++ back) = splitPath front ++ splitPath back := by
  have parted : (front.toList ++ '.' :: back.toList).splitOn '.' =
      front.toList.splitOn '.' ++ back.toList.splitOn '.' :=
    List.splitOnP_append_cons front.toList back.toList (beq_self_eq_true '.')
  have text : (front ++ "." ++ back).toList = front.toList ++ '.' :: back.toList := by simp
  simp only [splitPath, text, parted, List.map_append]

theorem lookup_joined (v : Value) (front back : String) :
    lookup v (front ++ "." ++ back) = match lookup v front with
      | .error fault => .error fault
      | .ok none => .ok none
      | .ok (some u) => lookup u back := by
  rw [lookup, splitPath_joined, follow_append]
  rfl

theorem lookupOr_eq_error_iff {path : String} {default : Value} :
    lookupOr v path default = .error fault ↔ lookup v path = .error fault := by
  cases found : lookup v path <;> simp [lookupOr, found, Except.map]

/-- What stands at a joined path is what stands at its second part in what stands at the first: a
null that is found is looked into, where nothing is found the default stands, and there is no other
way to fail than in one of the two look-ups. -/
theorem lookupOr_joined (v : Value) (front back : String) (default : Value) :
    (lookupOr v (front ++ "." ++ back) default = match lookup v front with
      | .error fault => .error fault
      | .ok none => .ok default
      | .ok (some u) => lookupOr u back default) ∧
    ((∃ fault, lookupOr v (front ++ "." ++ back) default = .error fault) ↔
      (∃ fault, lookup v front = .error fault) ∨
        ∃ u, lookup v front = .ok (some u) ∧ ∃ fault, lookup u back = .error fault) := by
  have joined := lookup_joined v front back
  simp only [lookupOr_eq_error_iff]
  cases found : lookup v front with
  | error fault => simp [lookupOr, joined, found, Except.map]
  | ok inner => cases inner <;> simp [lookupOr, joined, found, Except.map]

end Value

end Harvest
