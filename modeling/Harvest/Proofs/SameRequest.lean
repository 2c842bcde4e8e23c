import Mathlib
import Harvest.Pagination.Strategy
import Harvest.Proofs.Identity
import Harvest.Proofs.Json.ReadBack
import Harvest.Proofs.Lookup
import Harvest.Proofs.Pagination
import Harvest.Wire.Client

namespace Harvest

namespace Text

theorem toNat_of_isDigit {c : Char} (digit : c.isDigit = true) :
    48 ≤ c.toNat ∧ c.toNat < 58 := by
  simp only [Char.isDigit, ge_iff_le, UInt32.le_iff_toNat_le, Bool.and_eq_true,
    decide_eq_true_eq] at digit
  exact ⟨digit.1, Nat.lt_succ_of_le digit.2⟩

theorem isDigit_toDigits {n : Nat} {c : Char} (member : c ∈ Nat.toDigits 10 n) :
    c.isDigit = true :=
  Nat.isDigit_of_mem_toDigits (b := 10) (by decide) (by decide) member

theorem decimalValue?_of_isDigit {c : Char} (digit : c.isDigit = true) :
    decimalValue? c = some (c.toNat - '0'.toNat) := by
  have table : ∀ n < 58, 48 ≤ n → decimalZeros.find? (fun first =>
      decide (first ≤ n) && decide (n < first + 10)) = some 48 := by
    decide +kernel
  obtain ⟨least, most⟩ := toNat_of_isDigit digit
  rw [decimalValue?, table c.toNat most least]
  rfl

theorem isBlank_of_isDigit {c : Char} (digit : c.isDigit = true) : isBlank c = false := by
  have table : ∀ n < 58, 48 ≤ n → inRanges blankRanges n = false := by decide
  exact table c.toNat (toNat_of_isDigit digit).2 (toNat_of_isDigit digit).1

theorem trim_of_unblank {cs : List Char} (unblank : ∀ c ∈ cs, isBlank c = false) :
    trim cs = cs := by
  have kept : ∀ ds : List Char, (∀ c ∈ ds, isBlank c = false) → ds.dropWhile isBlank = ds := by
    rintro (_ | ⟨d, rest⟩) plain
    · rfl
    · rw [List.dropWhile_cons_of_neg (by simp [plain d])]
  rw [trim, kept cs unblank, trimEnd, kept cs.reverse (by simpa using unblank),
    List.reverse_reverse]

theorem ofDigits_filterMap {cs : List Char} (digits : ∀ c ∈ cs, c.isDigit = true) :
    ofDigits (cs.filterMap decimalValue?) = Nat.ofDigitChars 10 cs 0 := by
  have values : cs.filterMap decimalValue? = cs.map fun c => c.toNat - '0'.toNat := by
    rw [← List.filterMap_eq_map]
    exact List.filterMap_congr fun c member => decimalValue?_of_isDigit (digits c member)
  rw [ofDigits, values, List.foldl_map, Nat.ofDigitChars]

theorem eq_of_grouped_toDigits {n k : Nat}
    (read : (grouped decimalValue? (Nat.toDigits 10 n)).bind natOf? = some k) : k = n := by
  have digits : ∀ c ∈ Nat.toDigits 10 n, c.isDigit = true := fun _ => isDigit_toDigits
  have decimal : ∀ c ∈ Nat.toDigits 10 n, isDecimal c = true := by
    intro c member
    rw [isDecimal, decimalValue?_of_isDigit (digits c member)]
    rfl
  rw [grouped_digits Nat.toDigits_ne_nil fun c member => isDigit_of_isDecimal (decimal c member),
    if_pos (List.all_eq_true.2 decimal), Option.bind_some, natOf?] at read
  split at read
  · rw [← Option.some.inj read, ofDigits_filterMap digits, Nat.ofDigitChars_ten_toDigits]
  · cases read

theorem trim_toString (n : Int) : trim (toString n).toList = (toString n).toList := by
  have digit {k : Nat} {c : Char} (member : c ∈ Nat.toDigits 10 k) : isBlank c = false :=
    isBlank_of_isDigit (isDigit_toDigits member)
  apply trim_of_unblank
  intro c member
  rw [Json.Reader.toList_toString] at member
  split at member
  · exact digit member
  · rcases List.mem_cons.1 member with rfl | later
    · decide
    · exact digit later

theorem signed_toDigits (k : Nat) : signed (Nat.toDigits 10 k) = (false, Nat.toDigits 10 k) := by
  have digits : ∀ c ∈ Nat.toDigits 10 k, c.isDigit = true := fun _ => isDigit_toDigits
  unfold signed
  split
  next first => exact absurd (digits '-' (by simp [first])) (by decide)
  next first => exact absurd (digits '+' (by simp [first])) (by decide)
  next => rfl

theorem readInt?_eq (text : String) :
    readInt? text = ((grouped decimalValue? (signed (trim text.toList)).2).bind natOf?).map
      (withSign (signed (trim text.toList)).1) := by
  unfold readInt?
  obtain ⟨negative, body⟩ := signed (trim text.toList)
  change ((grouped decimalValue? body).bind fun digits =>
    (natOf? digits).bind fun n => some (withSign negative n)) = _
  rw [Option.map_bind]
  congr 1
  funext digits
  exact (Option.map_eq_bind ..).symm

theorem eq_of_readInt?_toString {n m : Int} (read : readInt? (toString n) = some m) : m = n := by
  rw [readInt?_eq, trim_toString, Json.Reader.toList_toString, Option.map_eq_some_iff] at read
  obtain ⟨k, found, rfl⟩ := read
  split at found
  next positive =>
    rw [signed_toDigits] at found
    rw [eq_of_grouped_toDigits found, if_pos positive, signed_toDigits]
    exact Int.toNat_of_nonneg positive
  next negative =>
    rw [eq_of_grouped_toDigits found, if_neg negative]
    simp only [signed, withSign, if_true]
    omega

end Text

namespace Members

variable {α β : Type} {ms : List (String × α)}

theorem get?_filterMap (distinct : (keys ms).Nodup) (f : α → Option β) (key : String) :
    get? (ms.filterMap fun m => (f m.2).map (m.1, ·)) key = (get? ms key).bind f := by
  induction ms with
  | nil => rfl
  | cons m rest ih =>
    obtain ⟨name, v⟩ := m
    obtain ⟨fresh, distinct⟩ := List.nodup_cons.1 distinct
    rw [List.filterMap_cons]
    cases taken : f v with
    | none =>
      rw [Option.map_none, ih distinct, get?]
      by_cases here : name = key
      · subst here
        rw [get?_eq_none_iff.2 fresh, if_pos rfl, Option.bind_some, taken, Option.bind_none]
      · rw [if_neg here]
    | some w =>
      simp only [Option.map_some, get?, ih distinct]
      by_cases here : name = key
      · rw [if_pos here, if_pos here, Option.bind_some, taken]
      · rw [if_neg here, if_neg here]

theorem eq_of_get?_eq {others : List (String × α)} (distinct : (keys ms).Nodup)
    (names : keys others = keys ms) (values : ∀ key, get? others key = get? ms key) :
    others = ms := by
  induction ms generalizing others with
  | nil => exact List.map_eq_nil_iff.1 names
  | cons m rest ih =>
    obtain ⟨name, v⟩ := m
    obtain ⟨fresh, apart⟩ := List.nodup_cons.1 distinct
    cases others with
    | nil => cases names
    | cons o others =>
      obtain ⟨other, w⟩ := o
      obtain ⟨same, later⟩ := List.cons.inj names
      obtain rfl : other = name := same
      have first : w = v := by simpa [get?] using values other
      have behind : others = rest := by
        refine ih apart later fun key => ?_
        by_cases here : other = key
        · subst here
          have absent : other ∉ keys others := by rwa [show keys others = keys rest from later]
          rw [get?_eq_none_iff.2 fresh, get?_eq_none_iff.2 absent]
        · simpa [get?, here] using values key
      rw [first, behind]

end Members

namespace Wire

/-- The text that a query argument takes in an address, if it is sent at all. -/
def argumentText? (v : Value) : Option String :=
  (encodeArgument v).map Value.text

theorem argumentText?_eq_none_iff {v : Value} : argumentText? v = none ↔ v = .null := by
  cases v <;> simp [argumentText?, encodeArgument]

theorem argumentText?_str (s : String) : argumentText? (.str s) = some s :=
  rfl

theorem argumentText?_int (n : Int) : argumentText? (.int n) = some (toString n) :=
  congrArg some String.ofList_toList

theorem get?_encodeArguments {args : Fields} (distinct : (Members.keys args).Nodup)
    (name : String) : (Members.get? (encodeArguments args) name).map Value.text =
      (Members.get? args name).bind argumentText? := by
  rw [encodeArguments, Members.get?_filterMap distinct, Option.map_bind]
  rfl

theorem ordered_of_canonical_eq {v : Value} {n : Int}
    (same : v.canonical = (toString n).toList) : v.ordered = .int n :=
  Value.ordered_eq_of_canonical_eq (w := .int n) same

theorem eq_of_argumentText? {v : Value} {m n : Int} (read : Pagination.integerOf v = .ok m)
    (sent : argumentText? v = some (toString n)) : m = n := by
  cases v with
  | null => cases sent
  | bool b =>
    -- flags and fractions are sent as their JSON texts, which are not those of integers
    have text : (Value.bool b).canonical = (toString n).toList := by
      rw [← Option.some.inj sent]
      cases b <;> rfl
    cases ordered_of_canonical_eq text
  | double d =>
    have text : (Value.double d).canonical = (toString n).toList := by
      rw [← Option.some.inj sent]
      exact (String.toList_ofList).symm
    cases ordered_of_canonical_eq text
  | int k =>
    have text : (Value.int k).canonical = (toString n).toList := by
      rw [← Option.some.inj sent]
      exact (String.toList_ofList).symm
    obtain rfl : k = m := Except.ok.inj read
    exact Value.int.inj (ordered_of_canonical_eq text)
  | str s =>
    obtain rfl : s = toString n := Option.some.inj sent
    unfold Pagination.integerOf at read
    dsimp only at read
    split at read
    next k found =>
      obtain rfl : k = m := Except.ok.inj read
      exact Text.eq_of_readInt?_toString found
    next => cases read
  | _ => cases read

namespace Setup

variable {setup : Setup} {path next : String}

def OnlySlashes (path : String) : Prop :=
  ∀ c ∈ path.toList, c = '/'

theorem rtakeWhile_append {stays : Char → Bool} {front back : List Char} {c : Char}
    (inside : c ∈ back) (other : stays c = false) :
    (front ++ back).rtakeWhile stays = back.rtakeWhile stays := by
  have short : (back.reverse.takeWhile stays).length ≠ back.reverse.length := by
    intro whole
    have all := List.takeWhile_eq_self_iff.1 (List.takeWhile_prefix stays |>.eq_of_length whole)
    rw [all c (List.mem_reverse.2 inside)] at other
    cases other
  rw [List.rtakeWhile, List.reverse_append, List.takeWhile_append, if_neg short]
  rfl

theorem exists_behind_slashes (other : ¬ OnlySlashes path) :
    ∃ c ∈ path.toList.dropWhile (· == '/'), (c == '/') = false := by
  have first := List.head?_dropWhile_not (· == '/') path.toList
  cases left : path.toList.dropWhile (· == '/') with
  | nil =>
    refine absurd (fun c inside => ?_) other
    simpa using List.dropWhile_eq_nil_iff.1 left c inside
  | cons c rest =>
    rw [left] at first
    exact ⟨c, List.mem_cons_self, first⟩

theorem rtakeWhile_urlFor (other : ¬ OnlySlashes path) :
    (setup.urlFor path).toList.rtakeWhile (· == '/') = path.toList.rtakeWhile (· == '/') := by
  unfold urlFor
  split
  next => rfl
  next base =>
    split
    · rfl
    · obtain ⟨c, behind, unlike⟩ := exists_behind_slashes other
      have whole : path.toList = path.toList.takeWhile (· == '/') ++
          path.toList.dropWhile (· == '/') := List.takeWhile_append_dropWhile.symm
      rw [String.toList_append, String.toList_ofList, rtakeWhile_append behind unlike]
      conv_rhs => rw [whole]
      rw [rtakeWhile_append behind unlike]

theorem onlySlashes_iff : OnlySlashes path ↔ path.toList.rdropWhile (· == '/') = [] := by
  rw [List.rdropWhile_eq_nil_iff]
  simp [OnlySlashes]

theorem alike_of_urlFor_eq (differ : path ≠ next) (url : setup.urlFor path = setup.urlFor next) :
    setup.base.getD "" ≠ "" ∧
      (path.toList.dropWhile (· == '/') = next.toList.dropWhile (· == '/') ∨
        isAbsolute path ≠ isAbsolute next) := by
  unfold urlFor at url
  cases given : setup.base with
  | none =>
    rw [given] at url
    exact absurd url differ
  | some base =>
    rw [given] at url
    dsimp only at url
    by_cases blank : base = ""
    · simp only [blank, beq_self_eq_true, Bool.true_or, if_true] at url
      exact absurd url differ
    · have named : (base == "") = false := beq_eq_false_iff_ne.2 blank
      refine ⟨blank, ?_⟩
      simp only [named, Bool.false_or] at url
      by_cases same : isAbsolute path = isAbsolute next
      · cases absolute : isAbsolute next with
        | true =>
          rw [same, absolute, if_pos rfl, if_pos rfl] at url
          exact absurd url differ
        | false =>
          rw [same, absolute, if_neg Bool.false_ne_true, if_neg Bool.false_ne_true] at url
          exact .inl (String.ofList_injective (String.append_right_inj _ |>.1 url))
      · exact .inr same

theorem onlySlashes_of_urlFor_eq (same : Link.samePath path next = true) (differ : path ≠ next)
    (url : setup.urlFor path = setup.urlFor next) :
    OnlySlashes path ∧ OnlySlashes next ∧ setup.base.getD "" ≠ "" := by
  have fronts : path.toList.rdropWhile (· == '/') = next.toList.rdropWhile (· == '/') :=
    Link.samePath_iff.1 same
  have others : OnlySlashes path ↔ OnlySlashes next := by
    rw [onlySlashes_iff, onlySlashes_iff, fronts]
  by_cases slashes : OnlySlashes path
  · exact ⟨slashes, others.1 slashes, (alike_of_urlFor_eq differ url).1⟩
  · have ends : path.toList.rtakeWhile (· == '/') = next.toList.rtakeWhile (· == '/') :=
      calc path.toList.rtakeWhile (· == '/')
        _ = (setup.urlFor path).toList.rtakeWhile (· == '/') := (rtakeWhile_urlFor slashes).symm
        _ = (setup.urlFor next).toList.rtakeWhile (· == '/') := by rw [url]
        _ = next.toList.rtakeWhile (· == '/') := rtakeWhile_urlFor (mt others.2 slashes)
    refine absurd (String.toList_inj.1 ?_) differ
    calc path.toList
      _ = path.toList.rdropWhile (· == '/') ++ path.toList.rtakeWhile (· == '/') :=
        List.rdropWhile_append_rtakeWhile.symm
      _ = next.toList.rdropWhile (· == '/') ++ next.toList.rtakeWhile (· == '/') := by
        rw [fronts, ends]
      _ = next.toList := List.rdropWhile_append_rtakeWhile

/-- Two calls are sent as one and the same request, if query arguments are compared by the text they
take in the address. -/
structure SameRequest (setup : Setup) (c d : Call) : Prop where
  verb : (setup.sent c).verb = (setup.sent d).verb
  url : (setup.sent c).url = (setup.sent d).url
  params : ∀ name, (Members.get? (setup.sent c).params name).map Value.text =
    (Members.get? (setup.sent d).params name).map Value.text
  headers : ∀ name, Members.get? (setup.sent c).headers name =
    Members.get? (setup.sent d).headers name
  body : (setup.sent c).body = (setup.sent d).body

theorem SameRequest.argument {c d : Call} (same : setup.SameRequest c d)
    (left : (Members.keys c.queryArgs).Nodup) (right : (Members.keys d.queryArgs).Nodup)
    (name : String) : (Members.get? c.queryArgs name).bind argumentText? =
      (Members.get? d.queryArgs name).bind argumentText? := by
  rw [← get?_encodeArguments left, ← get?_encodeArguments right]
  exact same.params name

end Setup

end Wire

end Harvest
