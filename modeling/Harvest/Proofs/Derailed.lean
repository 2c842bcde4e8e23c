import Mathlib
import Harvest.Proofs.Links
import Harvest.Proofs.Lookup
import Harvest.Proofs.Pagination

namespace Harvest.Pagination

def Ascii (text : String) : Prop :=
  ∀ c ∈ text.toList, c.toNat < 128

def IsItemsField (field : Value) : Prop :=
  field = .null ∨ ∃ path, field = .str path ∧ Ascii path

def itemsPath? : Value → Option String
  | .str path => if path = "" then none else some path
  | _ => none

namespace Strategy

/-- Paths are in ASCII, sizes and numbers are integers, no argument has the name that is taken, and
a link may be followed on the same path. -/
inductive Proper : Strategy → Prop
  | single : Proper .single
  | token {tokenField queryArg : String} (field : Ascii tokenField) (free : queryArg ≠ "current") :
    Proper (.token (.str tokenField) (.str queryArg))
  | cursor {cursorField : String} (field : Ascii cursorField) :
    Proper (.cursor (.str cursorField) .same)
  | offset {offsetArg limitArg : String} {itemsField : Value} {pageSize : Int}
    (field : IsItemsField itemsField) (free : offsetArg ≠ "current") :
    Proper (.offset (.str offsetArg) (.str limitArg) itemsField (.int pageSize))
  | numbered {pageArg : String} {itemsField : Value} {firstPage : Int}
    (field : IsItemsField itemsField) (free : pageArg ≠ "current") :
    Proper (.numbered (.str pageArg) itemsField (.int firstPage))

def counters : Strategy → List String
  | .offset (.str offsetArg) (.str limitArg) _ _ => [offsetArg, limitArg]
  | .numbered (.str pageArg) _ _ => [pageArg]
  | _ => []

def path? : Strategy → Option String
  | .token (.str path) _ | .cursor (.str path) _ => some path
  | .offset _ _ itemsField _ | .numbered _ itemsField _ => itemsPath? itemsField
  | _ => none

end Strategy

def Counted (names : List String) (call : Call) : Prop :=
  ∀ name ∈ names, ∀ v, Members.get? call.queryArgs name = some v → ∃ n, v = .int n

/-- The path leads to a list and goes on with more digits than an index may have. -/
def Overlong (data : Value) (path : String) : Prop :=
  ∃ front part rest items, Value.splitPath path = front ++ part :: rest ∧
    Value.follow data front = .ok (some (.arr items)) ∧ part.toList.all Char.isDigit = true ∧
    Text.digitLimit < part.toList.length

/-- The strategy cannot take a page with these data. -/
inductive Derails (data : Value) : Strategy → Prop
  | path {strategy : Strategy} {path : String} (looked : strategy.path? = some path)
    (overlong : Overlong data path) : Derails data strategy
  | link {cursorField text : String} {check : PathCheck}
    (held : Value.lookup data cursorField = .ok (some (.str text)))
    (unnamed : Link.isHost (Link.host text) = false) :
    Derails data (.cursor (.str cursorField) check)

variable {data : Value} {path : String}

theorem lookup_fails_iff (ascii : Ascii path) :
    (∃ fault, Value.lookup data path = .error fault) ↔ Overlong data path := by
  have digits : ∀ part ∈ Value.splitPath path, ∀ c ∈ part.toList,
      Text.isDigit c = c.isDigit ∧ Text.isDecimal c = c.isDigit := by
    intro part member c inside
    have small := ascii c (Value.mem_of_mem_splitPath member inside)
    exact ⟨Text.isDigit_of_lt small, Text.isDecimal_of_lt small⟩
  constructor
  · rintro ⟨fault, failed⟩
    obtain ⟨front, part, rest, items, split, found, index, unread⟩ :=
      Value.lookup_eq_error_iff.1 failed
    have own := digits part (by simp [split])
    have numeric : ∀ c ∈ part.toList, c.isDigit = true := by
      intro c inside
      rw [← (own c inside).1]
      simp only [Value.isIndexText, Bool.and_eq_true, List.all_eq_true] at index
      exact index.2 c inside
    have decimal : part.toList.all Text.isDecimal = true := by
      rw [List.all_eq_true]
      intro c inside
      rw [(own c inside).2]
      exact numeric c inside
    obtain ⟨-, mixed | long⟩ := (Value.index?_eq_error_iff index).1 unread
    · rw [decimal] at mixed
      cases mixed
    · exact ⟨front, part, rest, items, split, found, List.all_eq_true.2 numeric, long⟩
  · rintro ⟨front, part, rest, items, split, found, numeric, long⟩
    have own := digits part (by simp [split])
    rw [List.all_eq_true] at numeric
    have nonempty : part ≠ "" := by
      rintro rfl
      simp at long
    have index : Value.isIndexText part = true := by
      simp only [Value.isIndexText, Bool.and_eq_true, bne_iff_ne, List.all_eq_true]
      refine ⟨nonempty, fun c inside => ?_⟩
      rw [(own c inside).1]
      exact numeric c inside
    have unread := (Value.index?_eq_error_iff index).2 ⟨rfl, .inr long⟩
    exact ⟨_, Value.lookup_eq_error_iff.2 ⟨front, part, rest, items, split, found, index, unread⟩⟩

theorem valueAt_of_overlong (ascii : Ascii path) (overlong : Overlong data path) :
    valueAt data (.str path) = .error .unreadable := by
  obtain ⟨fault, failed⟩ := (lookup_fails_iff ascii).2 overlong
  simp only [valueAt, textOf, ok_bind, Value.lookupOrNull, failed, Except.map]
  rfl

theorem exists_lookup (ascii : Ascii path) (fitting : ¬ Overlong data path) :
    ∃ found, Value.lookup data path = .ok found ∧
      valueAt data (.str path) = .ok (found.getD .null) := by
  cases looked : Value.lookup data path with
  | ok found => exact ⟨found, rfl, valueAt_of_lookup looked⟩
  | error fault => exact absurd ((lookup_fails_iff ascii).1 ⟨fault, looked⟩) fitting

variable {current : Call} {page : Page}

theorem integer_of_counted {names : List String} (counted : Counted names current) (name : String)
    (member : name ∈ names) (default : Int) :
    ∃ v n, argumentOr current.queryArgs (.str name) (.int default) = .ok v ∧
      integerOf v = .ok n := by
  rw [argumentOr_text]
  cases found : Members.get? current.queryArgs name with
  | none => exact ⟨.int default, default, rfl, rfl⟩
  | some v =>
    obtain ⟨n, rfl⟩ := counted name member v found
    exact ⟨.int n, n, rfl, rfl⟩

theorem exists_withArgument (current : Call) {name : String} (free : name ≠ "current") (v : Value) :
    ∃ next, withArgument current (.str name) v = .ok next := by
  rw [withArgument, if_neg (by simpa using free)]
  exact ⟨_, rfl⟩

theorem exists_nextByLink {text : String} (readable : Link.parse? text ≠ none) :
    ∃ next, (nextByLink .same current text).result = .ok next := by
  obtain ⟨link, parsed⟩ := Option.ne_none_iff_exists'.1 readable
  simp only [nextByLink, parsed]
  rw [Noted.result_bind, Noted.result_lift, PathCheck.allows, ok_bind]
  split
  · exact ⟨some (followed current link), rfl⟩
  · exact ⟨none, rfl⟩

variable {itemsField : Value}

theorem itemsOf_of_overlong (field : IsItemsField itemsField)
    (looked : itemsPath? itemsField = some path) (overlong : Overlong page.data path) :
    itemsOf page itemsField = .error .unreadable := by
  rcases field with rfl | ⟨place, rfl, ascii⟩
  · cases looked
  · by_cases blank : place = ""
    · simp [itemsPath?, blank] at looked
    · obtain rfl : place = path := by simpa [itemsPath?, blank] using looked
      have given : (Value.str place).isBlank = false := by simpa [Value.isBlank] using blank
      rw [itemsOf, given]
      simp only [Bool.false_eq_true, if_false, valueAt_of_overlong ascii overlong, error_bind]

theorem exists_itemsOf (field : IsItemsField itemsField)
    (fitting : ∀ path, itemsPath? itemsField = some path → ¬ Overlong page.data path) :
    ∃ items, itemsOf page itemsField = .ok items := by
  rw [exists_itemsOf_iff]
  rcases field with rfl | ⟨place, rfl, ascii⟩
  · exact .inl rfl
  · by_cases blank : place = ""
    · exact .inl (by simp [Value.isBlank, blank])
    · obtain ⟨found, -, read⟩ := exists_lookup ascii (fitting place (by simp [itemsPath?, blank]))
      exact .inr ⟨_, read⟩

namespace Strategy

variable {strategy : Strategy} {history : History}

theorem next_of_derails (proper : strategy.Proper) (derails : Derails page.data strategy) :
    (strategy.next history page current).result = .error .unreadable := by
  cases derails with
  | path looked overlong =>
    cases proper with
    | single => cases looked
    | token ascii =>
      obtain rfl := Option.some.inj looked
      change nextByToken _ _ page current = _
      rw [nextByToken, valueAt_of_overlong ascii overlong, error_bind]
    | cursor ascii =>
      obtain rfl := Option.some.inj looked
      change (nextByCursor _ _ page current).result = _
      rw [nextByCursor, Noted.result_bind, Noted.result_lift, valueAt_of_overlong ascii overlong,
        error_bind]
    | offset field =>
      change nextByOffset _ _ _ _ page current = _
      rw [nextByOffset, itemsOf_of_overlong field looked overlong, error_bind]
    | numbered field =>
      change nextByNumber _ _ _ page current = _
      rw [nextByNumber, itemsOf_of_overlong field looked overlong, error_bind]
  | @link cursorField text check held unnamed =>
    have unread : Link.parse? text = none := Link.parse?_eq_none_iff.2 unnamed
    have nonempty : text ≠ "" := by
      rintro rfl
      cases unnamed
    have found : (Noted.lift (valueAt page.data (.str cursorField))).result = .ok (.str text) :=
      valueAt_of_lookup held
    change (nextByCursor _ _ page current).result = _
    rw [nextByCursor, Noted.result_bind_of_ok found]
    simp only [beq_iff_eq, nonempty, if_false, nextByLink, unread, Noted.result_fail]

theorem exists_next (history : History) (proper : strategy.Proper)
    (counted : Counted strategy.counters current) (fitting : ¬ Derails page.data strategy) :
    ∃ next, (strategy.next history page current).result = .ok next := by
  have short : ∀ path, strategy.path? = some path → ¬ Overlong page.data path :=
    fun path looked overlong => fitting (.path looked overlong)
  cases proper with
  | single => exact ⟨none, rfl⟩
  | @token tokenField queryArg ascii free =>
    obtain ⟨found, -, read⟩ := exists_lookup ascii (short tokenField rfl)
    change ∃ next, nextByToken _ _ page current = .ok next
    rw [nextByToken, read, ok_bind]
    split
    · exact ⟨none, rfl⟩
    · obtain ⟨next, written⟩ := exists_withArgument current free (found.getD .null)
      exact ⟨some next, by rw [written]; rfl⟩
  | @cursor cursorField ascii =>
    obtain ⟨found, held, read⟩ := exists_lookup ascii (short cursorField rfl)
    have started : (Noted.lift (valueAt page.data (.str cursorField))).result =
        .ok (found.getD .null) := read
    change ∃ next, (nextByCursor _ _ page current).result = .ok next
    rw [nextByCursor, Noted.result_bind_of_ok started]
    split
    next text isText =>
      have linked : found = some (.str text) := by
        cases found with
        | none => cases isText
        | some v => exact congrArg some isText
      split
      · exact ⟨none, rfl⟩
      · apply exists_nextByLink
        intro unread
        rw [linked] at held
        exact fitting (.link held (Link.parse?_eq_none_iff.1 unread))
    next => exact ⟨none, rfl⟩
  | @offset offsetArg limitArg itemsField pageSize field free =>
    obtain ⟨items, listed⟩ := exists_itemsOf field short
    obtain ⟨v, limit, limitFound, limitRead⟩ :=
      integer_of_counted counted limitArg (by simp [counters]) pageSize
    obtain ⟨w, place, placeFound, placeRead⟩ :=
      integer_of_counted counted offsetArg (by simp [counters]) 0
    change ∃ next, nextByOffset _ _ _ _ page current = .ok next
    simp only [nextByOffset, listed, limitFound, limitRead, placeFound, placeRead, ok_bind]
    split
    · exact ⟨none, rfl⟩
    · obtain ⟨next, written⟩ :=
        exists_withArgument current free (.int (place + items.length))
      exact ⟨some next, by rw [written]; rfl⟩
  | @numbered pageArg itemsField firstPage field free =>
    obtain ⟨items, listed⟩ := exists_itemsOf field short
    obtain ⟨v, number, found, read⟩ :=
      integer_of_counted counted pageArg (by simp [counters]) firstPage
    change ∃ next, nextByNumber _ _ _ page current = .ok next
    simp only [nextByNumber, listed, found, read, ok_bind]
    split
    · exact ⟨none, rfl⟩
    · obtain ⟨next, written⟩ := exists_withArgument current free (.int (number + 1))
      exact ⟨some next, by rw [written]; rfl⟩

/-- With proper parameters and integers to count with, a strategy stops or asks for the next page
whatever the page holds, unless the page derails it; then it fails. -/
theorem next_fails_iff (proper : strategy.Proper) (counted : Counted strategy.counters current)
    (history : History) (page : Page) :
    ((∃ next, (strategy.next history page current).result = .ok next) ↔
      ¬ Derails page.data strategy) ∧
    ((strategy.next history page current).result = .error .unreadable ↔
      Derails page.data strategy) := by
  refine ⟨⟨?_, exists_next history proper counted⟩, ⟨?_, next_of_derails proper⟩⟩
  · rintro ⟨next, taken⟩ derails
    rw [next_of_derails proper derails] at taken
    cases taken
  · intro failed
    by_contra fitting
    obtain ⟨next, taken⟩ := exists_next history proper counted fitting
    rw [failed] at taken
    cases taken

theorem not_derails {path : String} {check : PathCheck} {data : Value}
    (short : ∀ part ∈ Value.splitPath path, part.toList.length ≤ Text.digitLimit)
    (plain : ∀ text, Value.lookup data path = .ok (some (.str text)) →
      ∀ c ∈ text.toList, Link.isSuspect c = false) :
    ¬ Derails data (.cursor (.str path) check) := by
  rintro (⟨looked, front, part, rest, items, split, -, -, long⟩ | ⟨held, unnamed⟩)
  · obtain rfl := Option.some.inj looked
    have bounded := short part (by simp [split])
    omega
  · exact Link.parse?_ne_none (plain _ held) (Link.parse?_eq_none_iff.2 unnamed)

def byLink : Strategy :=
  .cursor (.str "next") .same

def firstCall : Call :=
  ⟨"/a", .get, [], [], .null⟩

def linking (link : String) : Page :=
  ⟨.obj [("next", .str link)], 200, []⟩

theorem byLink_proper : byLink.Proper := by
  refine .cursor ?_
  simp [Ascii]

theorem counted_firstCall {names : List String} : Counted names firstCall :=
  nofun

/-- A bracket that is not closed is enough. -/
theorem misprinted_link_fails :
    byLink.Proper ∧ Counted byLink.counters firstCall ∧
    (linking "https://[host/a?p=2").data.isJson = true ∧
    ∀ history, (byLink.next history (linking "https://[host/a?p=2") firstCall).result =
      .error .unreadable := by
  have held : Value.lookup (linking "https://[host/a?p=2").data "next" =
      .ok (some (.str "https://[host/a?p=2")) := by
    cbv
  have unnamed : Link.isHost (Link.host "https://[host/a?p=2") = false := by decide +kernel
  exact ⟨byLink_proper, counted_firstCall, rfl,
    fun _ => next_of_derails byLink_proper (.link held unnamed)⟩

theorem printed_link_followed :
    byLink.Proper ∧ Counted byLink.counters firstCall ∧
    ∃ next, (byLink.next ⟨.obj [], []⟩ (linking "https://host/a?p=2") firstCall).result =
      .ok next := by
  have held : Value.lookup (linking "https://host/a?p=2").data "next" =
      .ok (some (.str "https://host/a?p=2")) := by
    cbv
  have short : ∀ part ∈ Value.splitPath "next", part.toList.length ≤ Text.digitLimit := by
    decide +kernel
  have fitting : ¬ Derails (linking "https://host/a?p=2").data byLink := by
    refine not_derails short fun text found => ?_
    rw [held] at found
    cases found
    have plain : ("https://host/a?p=2".toList.all fun c => !Link.isSuspect c) = true := by
      decide +kernel
    simpa using plain
  exact ⟨byLink_proper, counted_firstCall,
    (next_fails_iff byLink_proper counted_firstCall _ _).1.2 fitting⟩

end Strategy

end Harvest.Pagination
