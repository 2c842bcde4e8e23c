import Mathlib
import Harvest.Json.Reader
import Harvest.Proofs.Decimal.ReadBack
import Harvest.Value.Canonical

namespace Harvest.Json.Reader

open Decimal (Double Numeral)

def Closed : List Char → Prop
  | [] => True
  | c :: _ => c = ',' ∨ c = ']' ∨ c = '\x7d'

theorem Closed.cases {rest : List Char} (closed : Closed rest) :
    rest = [] ∨ ∃ c tail, rest = c :: tail ∧ (c = ',' ∨ c = ']' ∨ c = '\x7d') := by
  cases rest with
  | nil => exact .inl rfl
  | cons c tail => exact .inr ⟨c, tail, rfl, closed⟩

theorem closed_nil : Closed [] :=
  trivial

theorem closed_comma (tail : List Char) : Closed (',' :: tail) :=
  Or.inl rfl

theorem closed_bracket (tail : List Char) : Closed (']' :: tail) :=
  Or.inr (Or.inl rfl)

theorem closed_brace (tail : List Char) : Closed ('\x7d' :: tail) :=
  Or.inr (Or.inr rfl)

section Numbers

variable {negative : Bool} {whole decimals power rest : List Char}

theorem takeWhile_digits (digits : ∀ c ∈ whole, c.isDigit = true)
    (boundary : ∀ c, rest.head? = some c → c.isDigit = false) :
    (whole ++ rest).takeWhile Char.isDigit = whole := by
  rw [List.takeWhile_append_of_pos digits]
  cases rest with
  | nil => simp
  | cons c tail => simp [boundary c rfl]

theorem dropWhile_digits (digits : ∀ c ∈ whole, c.isDigit = true)
    (boundary : ∀ c, rest.head? = some c → c.isDigit = false) :
    (whole ++ rest).dropWhile Char.isDigit = rest := by
  rw [List.dropWhile_append_of_pos digits]
  cases rest with
  | nil => simp
  | cons c tail => simp [boundary c rfl]

theorem Closed.boundary (closed : Closed rest) : ∀ c, rest.head? = some c → c.isDigit = false := by
  rcases closed.cases with rfl | ⟨c, tail, rfl, rfl | rfl | rfl⟩ <;> simp

theorem number?_whole (digits : ∀ c ∈ whole, c.isDigit = true) (nonempty : whole ≠ [])
    (closed : Closed rest) :
    number? negative (whole ++ rest) =
      some (.int (if negative then -(Nat.ofDigitChars 10 whole 0 : Int)
        else Nat.ofDigitChars 10 whole 0), rest) := by
  simp only [number?, takeWhile_digits digits closed.boundary,
    dropWhile_digits digits closed.boundary]
  rcases closed.cases with rfl | ⟨c, tail, rfl, rfl | rfl | rfl⟩ <;> simp [nonempty]

variable {rank : Fin Decimal.rankCount}

theorem number?_pointed (digits : ∀ c ∈ whole, c.isDigit = true) (nonempty : whole ≠ [])
    (fraction : ∀ c ∈ decimals, c.isDigit = true) (closed : Closed rest)
    (value : Decimal.rankOfDecimal? (Nat.ofDigitChars 10 (whole ++ decimals) 0) (-decimals.length) =
      some rank) :
    number? negative (whole ++ '.' :: (decimals ++ rest)) =
      some (.double ⟨negative, rank⟩, rest) := by
  have point : ∀ c, ('.' :: (decimals ++ rest)).head? = some c → c.isDigit = false := by simp
  simp only [number?, takeWhile_digits digits point, dropWhile_digits digits point,
    takeWhile_digits fraction closed.boundary, dropWhile_digits fraction closed.boundary]
  rcases closed.cases with rfl | ⟨c, tail, rfl, rfl | rfl | rfl⟩ <;>
    simp [nonempty, Double.ofDecimal?, value]

def scaled (down : Bool) (power : List Char) : List Char :=
  'e' :: (if down then '-' else '+') :: power

def exponentOf (down : Bool) (power : List Char) : Int :=
  if down then -(Nat.ofDigitChars 10 power 0 : Int) else Nat.ofDigitChars 10 power 0

theorem number?_scaled {down : Bool} (digits : ∀ c ∈ whole, c.isDigit = true)
    (nonempty : whole ≠ []) (places : ∀ c ∈ power, c.isDigit = true) (closed : Closed rest)
    (value : Decimal.rankOfDecimal? (Nat.ofDigitChars 10 whole 0) (exponentOf down power) =
      some rank) :
    number? negative (whole ++ (scaled down power ++ rest)) =
      some (.double ⟨negative, rank⟩, rest) := by
  have mark : ∀ c, (scaled down power ++ rest).head? = some c → c.isDigit = false := by
    simp [scaled]
  simp only [number?, takeWhile_digits digits mark, dropWhile_digits digits mark]
  cases down <;>
    simp_all [scaled, exponentOf, takeWhile_digits places closed.boundary,
      dropWhile_digits places closed.boundary, Double.ofDecimal?]

theorem number?_pointed_scaled {down : Bool} (digits : ∀ c ∈ whole, c.isDigit = true)
    (nonempty : whole ≠ []) (fraction : ∀ c ∈ decimals, c.isDigit = true)
    (places : ∀ c ∈ power, c.isDigit = true) (closed : Closed rest)
    (value : Decimal.rankOfDecimal? (Nat.ofDigitChars 10 (whole ++ decimals) 0)
      (exponentOf down power - decimals.length) = some rank) :
    number? negative (whole ++ '.' :: (decimals ++ (scaled down power ++ rest))) =
      some (.double ⟨negative, rank⟩, rest) := by
  have point : ∀ c, ('.' :: (decimals ++ (scaled down power ++ rest))).head? = some c →
      c.isDigit = false := by simp
  have mark : ∀ c, (scaled down power ++ rest).head? = some c → c.isDigit = false := by
    simp [scaled]
  simp only [number?, takeWhile_digits digits point, dropWhile_digits digits point,
    takeWhile_digits fraction mark, dropWhile_digits fraction mark]
  cases down <;>
    simp_all [scaled, exponentOf, takeWhile_digits places closed.boundary,
      dropWhile_digits places closed.boundary, Double.ofDecimal?]

theorem ofDigitChars_leading_zeros (k : Nat) (digits : List Char) :
    Nat.ofDigitChars 10 (List.replicate k '0' ++ digits) 0 = Nat.ofDigitChars 10 digits 0 := by
  rw [Nat.ofDigitChars_append, Nat.ofDigitChars_replicate_zero, Nat.mul_zero]

theorem ofDigitChars_trailing_zeros (k : Nat) (digits : List Char) :
    Nat.ofDigitChars 10 (digits ++ List.replicate k '0') 0 =
      Nat.ofDigitChars 10 digits 0 * 10 ^ k := by
  rw [Nat.ofDigitChars_append, Nat.ofDigitChars_replicate_zero, Nat.mul_comm]

theorem isDigit_replicate_zero (k : Nat) : ∀ c ∈ List.replicate k '0', c.isDigit = true := by
  intro c member
  rw [List.eq_of_mem_replicate member]
  rfl

theorem isDigit_append {front back : List Char} (first : ∀ c ∈ front, c.isDigit = true)
    (second : ∀ c ∈ back, c.isDigit = true) : ∀ c ∈ front ++ back, c.isDigit = true :=
  fun c member => (List.mem_append.1 member).elim (first c) (second c)

variable {n : Numeral}

theorem number?_layoutPositional (digits : ∀ c ∈ n.digits, c.isDigit = true)
    (nonempty : n.digits ≠ []) (closed : Closed rest) (value : n.rank? = some rank) :
    number? negative (Double.layoutPositional n.digits n.place ++ rest) =
      some (.double ⟨negative, rank⟩, rest) := by
  unfold Numeral.rank? at value
  unfold Double.layoutPositional
  split
  next small =>
    set decimals := List.replicate (-n.place).toNat '0' ++ n.digits with padded
    have exponent : -(decimals.length : Int) = n.place - n.digits.length := by
      simp [padded]
      omega
    have whole : Nat.ofDigitChars 10 (['0'] ++ decimals) 0 = Nat.ofDigitChars 10 n.digits 0 := by
      rw [padded, ← List.append_assoc]
      exact ofDigitChars_leading_zeros ((-n.place).toNat + 1) n.digits
    have read : number? negative (['0'] ++ '.' :: (decimals ++ rest)) =
        some (.double ⟨negative, rank⟩, rest) :=
      number?_pointed (by simp) (by simp) (isDigit_append (isDigit_replicate_zero _) digits) closed
        (by rw [exponent, whole, value])
    simpa [padded] using read
  next large =>
    split
    next whole =>
      obtain ⟨k, size⟩ : ∃ k : Nat, n.place = n.digits.length + k :=
        ⟨n.place.toNat - n.digits.length, by omega⟩
      have zeros : n.place.toNat - n.digits.length = k := by omega
      have joined : n.digits ++ List.replicate k '0' ++ ['0'] =
          n.digits ++ List.replicate (k + 1) '0' := by
        rw [List.replicate_succ', List.append_assoc]
      have scaled : Decimal.rankOfDecimal?
          (Nat.ofDigitChars 10 (n.digits ++ List.replicate k '0' ++ ['0']) 0) (-1) = some rank := by
        rw [joined, ofDigitChars_trailing_zeros, Decimal.rankOfDecimal?_zeros]
        rwa [size, add_sub_cancel_left] at value
      have read : number? negative (n.digits ++ List.replicate k '0' ++ '.' :: (['0'] ++ rest)) =
          some (.double ⟨negative, rank⟩, rest) :=
        number?_pointed (isDigit_append digits (isDigit_replicate_zero k)) (by simp [nonempty])
          (by simp) closed scaled
      simpa [zeros] using read
    next inside =>
      have exponent : -((n.digits.drop n.place.toNat).length : Int) =
          n.place - n.digits.length := by
        rw [List.length_drop]
        omega
      have leading : n.digits.take n.place.toNat ≠ [] := by
        rw [← List.length_pos_iff, List.length_take]
        have := List.length_pos_iff.2 nonempty
        omega
      have read : number? negative
          (n.digits.take n.place.toNat ++ '.' :: (n.digits.drop n.place.toNat ++ rest)) =
            some (.double ⟨negative, rank⟩, rest) :=
        number?_pointed (fun c member => digits c (List.mem_of_mem_take member)) leading
          (fun c member => digits c (List.mem_of_mem_drop member)) closed
          (by rw [exponent, List.take_append_drop, value])
      simpa using read

theorem number?_layoutExponent (digits : ∀ c ∈ n.digits, c.isDigit = true)
    (nonempty : n.digits ≠ []) (closed : Closed rest) (value : n.rank? = some rank) :
    number? negative (Double.layoutExponent n.digits n.place ++ rest) =
      some (.double ⟨negative, rank⟩, rest) := by
  unfold Numeral.rank? at value
  set size := Nat.toDigits 10 (n.place - 1).natAbs with written
  set power := List.replicate (2 - size.length) '0' ++ size with padded
  have places : ∀ c ∈ power, c.isDigit = true :=
    isDigit_append (isDigit_replicate_zero _) fun _ member =>
      Nat.isDigit_of_mem_toDigits (b := 10) (by decide) (by decide) member
  have exponent : exponentOf (decide (n.place - 1 < 0)) power = n.place - 1 := by
    rw [exponentOf, padded, ofDigitChars_leading_zeros, written, Nat.ofDigitChars_ten_toDigits]
    simp only [decide_eq_true_eq]
    split <;> omega
  have suffix : 'e' :: (if n.place - 1 < 0 then '-' else '+') :: power =
      scaled (decide (n.place - 1 < 0)) power := by
    simp [scaled]
  unfold Double.layoutExponent
  simp only [← written, ← padded, suffix]
  split
  next first second more shape =>
    rw [shape] at digits value
    obtain ⟨leading, following⟩ := List.forall_mem_cons.1 digits
    have place : n.place - 1 - (second :: more).length =
        n.place - (first :: second :: more).length := by
      simp only [List.length_cons]
      omega
    have read : number? negative
        ([first] ++ '.' :: (second :: more ++ (scaled (decide (n.place - 1 < 0)) power ++ rest))) =
          some (.double ⟨negative, rank⟩, rest) :=
      number?_pointed_scaled (List.forall_mem_singleton.2 leading) (by simp) following places closed
        (by rw [exponent, place]; exact value)
    simpa using read
  next single =>
    have lone : n.digits.length = 1 := by
      match shape : n.digits with
      | [] => exact absurd shape nonempty
      | [_] => rfl
      | first :: second :: more => exact absurd shape (single first second more)
    rw [List.append_assoc]
    exact number?_scaled digits nonempty places closed
      (by rw [exponent, ← value, lone, Nat.cast_one])

theorem number?_layout (negative : Bool) (d : Double) (closed : Closed rest) :
    number? negative (Double.layout d.shortest ++ rest) =
      some (.double ⟨negative, d.rank⟩, rest) := by
  unfold Double.layout
  split
  · exact number?_layoutPositional d.isDigit_of_mem_digits_shortest d.digits_shortest_ne_nil closed
      d.rank?_shortest
  · exact number?_layoutExponent d.isDigit_of_mem_digits_shortest d.digits_shortest_ne_nil closed
      d.rank?_shortest

def Begins (cs : List Char) : Prop :=
  ∃ c tail, cs = c :: tail ∧ isSpace c = false ∧ c ≠ ']'

theorem begins_append {cs : List Char} (begins : Begins cs) (rest : List Char) :
    Begins (cs ++ rest) := by
  obtain ⟨c, tail, rfl, solid, other⟩ := begins
  exact ⟨c, tail ++ rest, rfl, solid, other⟩

theorem skip_of_begins {cs : List Char} (begins : Begins cs) : skip cs = cs := by
  obtain ⟨c, tail, rfl, solid, -⟩ := begins
  simp [skip, solid]

theorem number?_start {cs : List Char} {read : Value × List Char}
    (number : number? negative cs = some read) :
    ∃ c tail, cs = c :: tail ∧ c.isDigit = true := by
  cases cs with
  | nil => simp [number?] at number
  | cons c tail =>
    refine ⟨c, tail, rfl, ?_⟩
    by_contra other
    simp [number?, other] at number

theorem begins_of_digit {c : Char} (digit : c.isDigit = true) (tail : List Char) :
    Begins (c :: tail) := by
  refine ⟨c, tail, rfl, ?_, ?_⟩
  · by_contra space
    simp only [isSpace, Bool.or_eq_true, beq_iff_eq, Bool.not_eq_false] at space
    rcases space with ((rfl | rfl) | rfl) | rfl <;> simp at digit
  · rintro rfl
    simp at digit

theorem begins_minus (tail : List Char) : Begins ('-' :: tail) :=
  ⟨'-', tail, rfl, rfl, by decide⟩

theorem value?_of_number? (fuel : Nat) {cs : List Char} {read : Value × List Char}
    (number : number? false cs = some read) : value? (fuel + 1) cs = some read := by
  obtain ⟨c, tail, rfl, digit⟩ := number?_start number
  rw [value?, skip_of_begins (begins_of_digit digit tail)]
  split <;> simp_all

theorem value?_of_negative (fuel : Nat) {cs : List Char} {read : Value × List Char}
    (number : number? true cs = some read) : value? (fuel + 1) ('-' :: cs) = some read := by
  rw [value?, skip_of_begins (begins_minus cs)]
  exact number

theorem value?_double (fuel : Nat) (d : Double) (closed : Closed rest) :
    value? (fuel + 1) (d.written ++ rest) = some (.double d, rest) := by
  have read negative := number?_layout negative d closed
  obtain ⟨negative, rank⟩ := d
  cases negative with
  | false => exact value?_of_number? fuel (read false)
  | true => exact value?_of_negative fuel (read true)

theorem begins_written (d : Double) : Begins d.written := by
  obtain ⟨c, tail, text, digit⟩ :=
    number?_start (number?_layout false d closed_nil)
  rw [List.append_nil] at text
  unfold Double.written
  split
  · exact begins_minus _
  · rw [text]
    exact begins_of_digit digit tail

theorem toList_toString (n : Int) :
    (toString n).toList =
      if 0 ≤ n then Nat.toDigits 10 n.toNat else '-' :: Nat.toDigits 10 (-n).toNat := by
  rw [Int.toString_eq_repr, Int.repr_eq_if]
  split
  · exact Nat.toList_repr
  · rw [String.toList_append, Nat.toList_repr]
    rfl

theorem number?_toDigits (negative : Bool) (m : Nat) (closed : Closed rest) :
    number? negative (Nat.toDigits 10 m ++ rest) =
      some (.int (if negative then -(m : Int) else m), rest) := by
  have digits : ∀ c ∈ Nat.toDigits 10 m, c.isDigit = true :=
    fun _ member => Nat.isDigit_of_mem_toDigits (b := 10) (by decide) (by decide) member
  rw [number?_whole digits Nat.toDigits_ne_nil closed, Nat.ofDigitChars_ten_toDigits]

theorem value?_int (fuel : Nat) (n : Int) (closed : Closed rest) :
    value? (fuel + 1) ((toString n).toList ++ rest) = some (.int n, rest) := by
  rw [toList_toString]
  split
  next positive =>
    have read := value?_of_number? fuel (number?_toDigits false n.toNat closed)
    rw [read, if_neg (by decide), Int.toNat_of_nonneg positive]
  next negative =>
    have read := value?_of_negative fuel (number?_toDigits true (-n).toNat closed)
    rw [List.cons_append, read, if_pos rfl, Int.toNat_of_nonneg (by omega), Int.neg_neg]

theorem begins_int (n : Int) : Begins (toString n).toList := by
  rw [toList_toString]
  split
  · obtain ⟨c, tail, text, digit⟩ :=
      number?_start (number?_toDigits false n.toNat closed_nil)
    rw [List.append_nil] at text
    rw [text]
    exact begins_of_digit digit tail
  · exact begins_minus _

end Numbers

section Strings

theorem hexDigit?_digitChar : ∀ n < 16, Text.hexDigit? (Nat.digitChar n) = some n := by
  decide

theorem hex_succ {width : Nat} (n : Nat) (positive : 0 < width) :
    Text.hex (width + 1) n = Text.hex width (n / 16) ++ [Nat.digitChar (n % 16)] := by
  rcases Nat.lt_or_ge n 16 with small | large
  · obtain ⟨k, rfl⟩ := Nat.exists_eq_succ_of_ne_zero positive.ne'
    simp [Text.hex, Nat.toDigits_of_lt_base small, Nat.div_eq_of_lt small, Nat.mod_eq_of_lt small,
      List.replicate_succ']
  · simp [Text.hex, Nat.toDigits_of_base_le (by decide : 1 < 16) large]

theorem hex_one {n : Nat} (small : n < 16) : Text.hex 1 n = [Nat.digitChar n] := by
  simp [Text.hex, Nat.toDigits_of_lt_base small]

theorem hex_four {n : Nat} (small : n < 0x10000) :
    Text.hex 4 n = [Nat.digitChar (n / 16 / 16 / 16), Nat.digitChar (n / 16 / 16 % 16),
      Nat.digitChar (n / 16 % 16), Nat.digitChar (n % 16)] := by
  rw [hex_succ _ (by decide), hex_succ _ (by decide), hex_succ _ (by decide),
    hex_one (n := n / 16 / 16 / 16) (by omega)]
  rfl

theorem unit?_digits {n : Nat} (small : n < 0x10000) :
    unit? (Nat.digitChar (n / 16 / 16 / 16)) (Nat.digitChar (n / 16 / 16 % 16))
      (Nat.digitChar (n / 16 % 16)) (Nat.digitChar (n % 16)) = some n := by
  have low : ∀ m, m % 16 < 16 := fun m => Nat.mod_lt m (by decide)
  simp only [unit?, hexDigit?_digitChar _ (low _),
    hexDigit?_digitChar (n / 16 / 16 / 16) (by omega)]
  simp
  omega

theorem string?_escapeUnit {n : Nat} (small : n < 0x10000) (plain : ¬ (0xD800 ≤ n ∧ n < 0xDC00))
    (acc tail : List Char) :
    string? acc (Value.escapeUnit n ++ tail) = string? (Char.ofNat n :: acc) tail := by
  simp only [Value.escapeUnit, hex_four small, List.cons_append, List.nil_append]
  rw [string?, unit?_digits small]
  simp only [Bool.and_eq_true, decide_eq_true_eq, plain, if_false]

theorem string?_surrogates {n : Nat} (large : 0x10000 ≤ n) (valid : n < 0x110000)
    (acc tail : List Char) :
    string? acc (Value.escapeUnit (Value.surrogates n).1 ++
      (Value.escapeUnit (Value.surrogates n).2 ++ tail)) = string? (Char.ofNat n :: acc) tail := by
  obtain ⟨high, low, parts⟩ : ∃ high low, Value.surrogates n = (high, low) := ⟨_, _, rfl⟩
  simp only [Value.surrogates, Prod.mk.injEq] at parts
  have high_small : high < 0x10000 := by omega
  have low_small : low < 0x10000 := by omega
  have surrogate : 0xD800 ≤ high ∧ high < 0xDC00 := by omega
  have joined_eq : joined high low = Char.ofNat n := congrArg Char.ofNat (by omega)
  simp only [Value.surrogates, parts, Value.escapeUnit, hex_four high_small, hex_four low_small,
    List.cons_append, List.nil_append]
  rw [string?, unit?_digits high_small]
  simp [surrogate, unit?_digits low_small, joined_eq]

theorem string?_simpleEscape {c : Char} {e : Char} (escape : simpleEscape? e = some c)
    (plain : e ≠ 'u') (acc tail : List Char) :
    string? acc ('\\' :: e :: tail) = string? (c :: acc) tail := by
  rw [string?]
  · simp [escape]
  · intro a b c d rest same
    exact absurd same plain

theorem string?_plain {c : Char} (unquoted : c ≠ '"') (unescaped : c ≠ '\\')
    (acc tail : List Char) : string? acc (c :: tail) = string? (c :: acc) tail := by
  rw [string?]
  · exact unquoted
  · exact fun _ _ _ _ _ same => absurd same unescaped
  · exact fun _ _ same => absurd same unescaped

theorem string?_escapePoint (c : Char) (acc tail : List Char) :
    string? acc (Value.escapePoint c.toNat ++ tail) = string? (c :: acc) tail := by
  have valid : c.toNat < 0xD800 ∨ 0xDFFF < c.toNat ∧ c.toNat < 0x110000 := c.valid
  have same {d : Char} (code : c.toNat = d.toNat) : d = c := Char.toNat_inj.1 code.symm
  unfold Value.escapePoint
  simp only [beq_iff_eq, Bool.or_eq_true, Bool.and_eq_true, decide_eq_true_eq]
  split_ifs with special line back tab erase feed printable unit
  · rcases special with quote | slash
    · obtain rfl := same (d := '"') quote
      exact string?_simpleEscape rfl (by decide) acc tail
    · obtain rfl := same (d := '\\') slash
      exact string?_simpleEscape rfl (by decide) acc tail
  · obtain rfl := same (d := '\n') line
    exact string?_simpleEscape rfl (by decide) acc tail
  · obtain rfl := same (d := '\r') back
    exact string?_simpleEscape rfl (by decide) acc tail
  · obtain rfl := same (d := '\t') tab
    exact string?_simpleEscape rfl (by decide) acc tail
  · obtain rfl := same (d := '\x08') erase
    exact string?_simpleEscape rfl (by decide) acc tail
  · obtain rfl := same (d := '\x0c') feed
    exact string?_simpleEscape rfl (by decide) acc tail
  · rw [Char.ofNat_toNat]
    refine string?_plain ?_ ?_ acc tail
    · rintro rfl
      exact special (.inl rfl)
    · rintro rfl
      exact special (.inr rfl)
  · rw [string?_escapeUnit unit (by omega), Char.ofNat_toNat]
  · rw [List.append_assoc, string?_surrogates (by omega) (by omega), Char.ofNat_toNat]

theorem string?_flatMap (cs acc rest : List Char) :
    string? acc ((cs.map Char.toNat).flatMap Value.escapePoint ++ '"' :: rest) =
      some (String.ofList (acc.reverse ++ cs), rest) := by
  induction cs generalizing acc with
  | nil => simp [string?]
  | cons c cs ih =>
    rw [List.map_cons, List.flatMap_cons, List.append_assoc, string?_escapePoint, ih]
    simp

theorem string?_canonicalString (s : String) (rest : List Char) :
    string? [] ((s.toList.map Char.toNat).flatMap Value.escapePoint ++ '"' :: rest) =
      some (s, rest) := by
  rw [string?_flatMap, List.reverse_nil, List.nil_append, String.ofList_toList]

end Strings

end Harvest.Json.Reader
