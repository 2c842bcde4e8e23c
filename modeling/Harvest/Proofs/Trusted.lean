import Mathlib
import Harvest.Proofs.Derailed

namespace Harvest

namespace Value

/-- JSON data in whose texts there are only these characters. The names of members may be any. -/
inductive Plain (allowed : Char → Bool) : Value → Prop
  | null : Plain allowed null
  | bool (b : Bool) : Plain allowed (bool b)
  | int (n : Int) : Plain allowed (int n)
  | double (d : Decimal.Double) : Plain allowed (double d)
  | str {s : String} (chars : ∀ c ∈ s.toList, allowed c = true) : Plain allowed (str s)
  | arr {items : List Value} (parts : ∀ v ∈ items, Plain allowed v) : Plain allowed (arr items)
  | obj {members : Fields} (distinct : (Members.keys members).Nodup)
      (parts : ∀ m ∈ members, Plain allowed m.2) : Plain allowed (obj members)

variable {allowed : Char → Bool} {data v : Value} {path : String}

theorem Plain.of_lookup (plain : Plain allowed data) (found : lookup data path = .ok (some v)) :
    Plain allowed v := by
  refine follow_inherits ?_ ?_ plain found
  · rintro vs (_ | _ | _ | _ | _ | parts | _)
    exact parts
  · rintro ms (_ | _ | _ | _ | _ | _ | ⟨-, parts⟩)
    exact parts

def placed : List String → Value → Value
  | [], v => v
  | part :: rest, v => obj [(part, placed rest v)]

theorem follow_placed (front rest : List String) :
    follow (placed front v) (front ++ rest) = follow v rest := by
  induction front with
  | nil => rfl
  | cons part front ih => simp [placed, follow, child, Members.get?, ih]

theorem lookup_placed : lookup (placed (splitPath path) v) path = .ok (some v) := by
  have followed := follow_placed (v := v) (splitPath path) []
  rwa [List.append_nil] at followed

theorem Plain.placed (plain : Plain allowed v) (parts : List String) :
    Plain allowed (placed parts v) := by
  induction parts with
  | nil => exact plain
  | cons part rest ih => exact .obj (List.nodup_singleton _) (List.forall_mem_singleton.2 ih)

def ReadablePath (path : String) : Prop :=
  ∀ part ∈ splitPath path, isIndexText part = true → ∃ n, index? part = .ok n

theorem exists_lookup_of_readable (readable : ReadablePath path) (data : Value) :
    ∃ found, lookup data path = .ok found := by
  cases looked : lookup data path with
  | ok found => exact ⟨found, rfl⟩
  | error fault =>
    obtain ⟨front, part, rest, items, split, -, index, unread⟩ := lookup_eq_error_iff.1 looked
    obtain ⟨n, read⟩ := readable part (by simp [split]) index
    rw [read] at unread
    cases unread

/-- A path that is not readable leads astray on a page with a list in the wrong place. -/
theorem readable_of_lookups (allowed : Char → Bool)
    (looked : ∀ data, Plain allowed data → ∃ found, lookup data path = .ok found) :
    ReadablePath path := by
  intro part member index
  cases read : index? part with
  | ok n => exact ⟨n, rfl⟩
  | error fault =>
    obtain ⟨front, rest, split⟩ := List.append_of_mem member
    have list : Plain allowed (.arr []) := .arr (by simp)
    obtain ⟨found, other⟩ := looked (Value.placed front (.arr [])) (list.placed front)
    have here : follow (Value.placed front (.arr [])) front = .ok (some (.arr [])) := by
      have followed := follow_placed (v := .arr []) front []
      rwa [List.append_nil] at followed
    rw [lookup_eq_error_iff.2 ⟨front, part, rest, [], split, here, index, read⟩] at other
    cases other

end Value

namespace Link

theorem parse?_of_isSuspect {c : Char} (suspect : isSuspect c = true) :
    parse? (String.ofList ['/', '/', c]) = none := by
  have table : ∀ n ∈ 0x5B :: 0x5D :: hiddenDelimiters,
      (parse? (String.ofList ['/', '/', Char.ofNat n])).isNone = true := by
    decide +kernel
  have listed : c.toNat ∈ 0x5B :: 0x5D :: hiddenDelimiters := by
    simp only [isSuspect, Bool.or_eq_true, beq_iff_eq, List.contains_iff_mem] at suspect
    rcases suspect with (rfl | rfl) | hidden
    · decide
    · decide
    · exact List.mem_cons_of_mem _ (List.mem_cons_of_mem _ hidden)
  have unread := table _ listed
  rwa [Char.ofNat_toNat, Option.isNone_iff_eq_none] at unread

end Link

namespace Pagination

variable {allowed : Char → Bool} {data field name v default : Value} {page : Page} {current : Call}
  {path : String} {items : List Value}

def IsPath (field : Value) : Prop :=
  ∃ path, field = .str path ∧ Value.ReadablePath path

def IsListPath (field : Value) : Prop :=
  field.isBlank = true ∨ IsPath field

def IsName (name : Value) : Prop :=
  ∃ s, name = .str s ∧ s ≠ "current"

def IsNumber (v : Value) : Prop :=
  ∃ n, integerOf v = .ok n

theorem IsPath.exists_valueAt (isPath : IsPath field) (data : Value) :
    ∃ v, valueAt data field = .ok v := by
  obtain ⟨path, rfl, readable⟩ := isPath
  obtain ⟨found, looked⟩ := Value.exists_lookup_of_readable readable data
  exact ⟨_, valueAt_of_lookup looked⟩

theorem isPath_of_valueAt (allowed : Char → Bool)
    (read : ∀ data, data.Plain allowed → ∃ v, valueAt data field = .ok v) : IsPath field := by
  cases field with
  | str path =>
    refine ⟨path, rfl, Value.readable_of_lookups allowed fun data plain => ?_⟩
    obtain ⟨v, found⟩ := read data plain
    cases looked : Value.lookup data path with
    | ok found => exact ⟨found, rfl⟩
    | error fault =>
      simp only [valueAt, textOf, ok_bind, Value.lookupOrNull, looked, Except.map] at found
      cases found
  | _ =>
    obtain ⟨v, found⟩ := read .null .null
    cases found

theorem IsPath.exists_holding (isPath : IsPath field) (plain : v.Plain allowed) :
    ∃ data, data.Plain allowed ∧ valueAt data field = .ok v := by
  obtain ⟨path, rfl, -⟩ := isPath
  exact ⟨_, plain.placed _, valueAt_of_lookup Value.lookup_placed⟩

theorem exists_withArgument_iff (current : Call) (name v : Value) :
    (∃ next, withArgument current name v = .ok next) ↔ IsName name := by
  unfold withArgument IsName
  split
  next s =>
    by_cases taken : s = "current" <;> simp [taken]
  next other =>
    refine iff_of_false nofun ?_
    rintro ⟨s, rfl, -⟩
    exact other s rfl

theorem IsName.isKey (isName : IsName name) : name.isKey = true := by
  obtain ⟨s, rfl, -⟩ := isName
  rfl

theorem argumentOr_nil : argumentOr [] name default = .ok v ↔ name.isKey = true ∧ v = default := by
  unfold argumentOr Value.key
  by_cases key : name.isKey = true
  · cases name.text? <;> simp [key, Members.get?, eq_comm]
  · simp [key]

theorem IsListPath.exists_itemsOf (isListPath : IsListPath field) (page : Page) :
    ∃ items, itemsOf page field = .ok items :=
  exists_itemsOf_iff.2 (isListPath.imp_right fun isPath => isPath.exists_valueAt page.data)

theorem isListPath_of_itemsOf (allowed : Char → Bool)
    (listed : ∀ page : Page, page.data.Plain allowed → ∃ items, itemsOf page field = .ok items) :
    IsListPath field := by
  by_cases blank : field.isBlank = true
  · exact .inl blank
  · refine .inr (isPath_of_valueAt allowed fun data plain => ?_)
    exact (exists_itemsOf_iff.1 (listed ⟨data, 200, []⟩ plain)).resolve_left blank

theorem IsListPath.exists_listing (isListPath : IsListPath field) (items : List Value)
    (plain : ∀ v ∈ items, v.Plain allowed) :
    ∃ page : Page, page.data.Plain allowed ∧ itemsOf page field = .ok items := by
  by_cases blank : field.isBlank = true
  · refine ⟨⟨.arr items, 200, []⟩, .arr plain, ?_⟩
    rw [itemsOf, if_pos blank]
    rfl
  · obtain ⟨data, whole, held⟩ := (isListPath.resolve_left blank).exists_holding (.arr plain)
    refine ⟨⟨data, 200, []⟩, whole, ?_⟩
    rw [itemsOf, if_neg blank, held]
    rfl

namespace Strategy

inductive Sound : Strategy → Prop
  | single : Sound .single
  | token {tokenField queryArg : Value} (field : IsPath tokenField) (argument : IsName queryArg) :
    Sound (.token tokenField queryArg)
  | cursor {cursorField : Value} (field : IsPath cursorField) : Sound (.cursor cursorField .same)
  | offset {offsetArg limitArg itemsField pageSize : Value} (field : IsListPath itemsField)
    (limit : limitArg.isKey = true) (size : IsNumber pageSize) (argument : IsName offsetArg) :
    Sound (.offset offsetArg limitArg itemsField pageSize)
  | numbered {pageArg itemsField firstPage : Value} (field : IsListPath itemsField)
    (first : IsNumber firstPage) (argument : IsName pageArg) :
    Sound (.numbered pageArg itemsField firstPage)

inductive FollowsLinks : Strategy → Prop
  | cursor {cursorField : Value} {check : PathCheck} : FollowsLinks (.cursor cursorField check)

/-- The strategy stops or asks for the next page, whatever page of JSON data with these characters
comes, if the call has no query arguments yet. -/
def Trusted (allowed : Char → Bool) (strategy : Strategy) : Prop :=
  ∀ (history : History) (page : Page) (current : Call), page.data.Plain allowed →
    current.queryArgs = [] → ∃ next, (strategy.next history page current).result = .ok next

def LinksFit (allowed : Char → Bool) (strategy : Strategy) : Prop :=
  strategy.FollowsLinks → ∀ c, allowed c = true → Link.isSuspect c = false

variable {strategy : Strategy}

theorem trusted_of_sound (sound : strategy.Sound) (links : strategy.LinksFit allowed) :
    strategy.Trusted allowed := by
  intro history page current plain bare
  cases sound with
  | single => exact ⟨none, rfl⟩
  | @token tokenField queryArg field argument =>
    obtain ⟨token, read⟩ := field.exists_valueAt page.data
    obtain ⟨next, written⟩ := (exists_withArgument_iff current queryArg token).2 argument
    change ∃ next, nextByToken _ _ page current = .ok next
    rw [nextByToken, read, ok_bind, written]
    split <;> exact ⟨_, rfl⟩
  | @cursor cursorField field =>
    obtain ⟨path, rfl, readable⟩ := field
    obtain ⟨found, looked⟩ := Value.exists_lookup_of_readable readable page.data
    have started : (Noted.lift (valueAt page.data (.str path))).result = .ok (found.getD .null) :=
      valueAt_of_lookup looked
    change ∃ next, (nextByCursor _ _ page current).result = .ok next
    rw [nextByCursor, Noted.result_bind_of_ok started]
    split
    next text isText =>
      split
      · exact ⟨none, rfl⟩
      · refine exists_nextByLink (Link.parse?_ne_none fun c inside => links .cursor c ?_)
        have linked : found = some (.str text) := by
          cases found with
          | none => cases isText
          | some v => exact congrArg some isText
        obtain _ | _ | _ | _ | chars | _ | _ := plain.of_lookup (linked ▸ looked)
        exact chars c inside
    next => exact ⟨none, rfl⟩
  | @offset offsetArg limitArg itemsField pageSize field limit size argument =>
    obtain ⟨items, listed⟩ := field.exists_itemsOf page
    obtain ⟨n, read⟩ := size
    obtain ⟨next, written⟩ :=
      (exists_withArgument_iff current offsetArg (.int (0 + items.length))).2 argument
    have limited : argumentOr [] limitArg pageSize = .ok pageSize := argumentOr_nil.2 ⟨limit, rfl⟩
    have placed : argumentOr [] offsetArg (.int 0) = .ok (.int 0) :=
      argumentOr_nil.2 ⟨argument.isKey, rfl⟩
    have zero : integerOf (.int 0) = .ok 0 := rfl
    change ∃ next, nextByOffset _ _ _ _ page current = .ok next
    simp only [nextByOffset, listed, bare, limited, read, placed, zero, written, ok_bind]
    split <;> exact ⟨_, rfl⟩
  | @numbered pageArg itemsField firstPage field first argument =>
    obtain ⟨items, listed⟩ := field.exists_itemsOf page
    obtain ⟨n, read⟩ := first
    obtain ⟨next, written⟩ := (exists_withArgument_iff current pageArg (.int (n + 1))).2 argument
    have numbered : argumentOr [] pageArg firstPage = .ok firstPage :=
      argumentOr_nil.2 ⟨argument.isKey, rfl⟩
    change ∃ next, nextByNumber _ _ _ page current = .ok next
    simp only [nextByNumber, listed, bare, numbered, read, written, ok_bind]
    split <;> exact ⟨_, rfl⟩

theorem sound_of_trusted_token {tokenField queryArg : Value}
    (trusted : (Strategy.token tokenField queryArg).Trusted allowed) :
    (Strategy.token tokenField queryArg).Sound := by
  have takes (data : Value) (plain : data.Plain allowed) :
      ∃ next, nextByToken tokenField queryArg ⟨data, 200, []⟩ firstCall = .ok next :=
    trusted ⟨.null, []⟩ ⟨data, 200, []⟩ firstCall plain rfl
  have field : IsPath tokenField := by
    refine isPath_of_valueAt allowed fun data plain => ?_
    obtain ⟨next, taken⟩ := takes data plain
    obtain ⟨v, read, -⟩ := bind_eq_ok.1 taken
    exact ⟨v, read⟩
  -- where the path leads to a token, the name is needed
  obtain ⟨data, plain, held⟩ := field.exists_holding (.bool true)
  obtain ⟨next, taken⟩ := takes data plain
  rw [nextByToken, held, ok_bind, if_neg (by simp [isNoToken])] at taken
  obtain ⟨changed, written, -⟩ := bind_eq_ok.1 taken
  exact .token field ((exists_withArgument_iff _ _ _).1 ⟨changed, written⟩)

theorem sound_of_trusted_cursor (slash : allowed '/' = true) {cursorField : Value}
    {check : PathCheck} (trusted : (Strategy.cursor cursorField check).Trusted allowed) :
    (Strategy.cursor cursorField check).Sound ∧
      ∀ c, allowed c = true → Link.isSuspect c = false := by
  have takes (data : Value) (plain : data.Plain allowed) :
      ∃ next, (nextByCursor cursorField check ⟨data, 200, []⟩ firstCall).result = .ok next :=
    trusted ⟨.null, []⟩ ⟨data, 200, []⟩ firstCall plain rfl
  have field : IsPath cursorField := by
    refine isPath_of_valueAt allowed fun data plain => ?_
    obtain ⟨next, taken⟩ := takes data plain
    obtain ⟨v, read, -⟩ := Noted.bind_eq_ok.1 taken
    exact ⟨v, read⟩
  have linked (text : String) (given : text ≠ "") (chars : ∀ c ∈ text.toList, allowed c = true) :
      ∃ next, (nextByLink check firstCall text).result = .ok next := by
    obtain ⟨data, plain, held⟩ := field.exists_holding (.str chars)
    obtain ⟨next, taken⟩ := takes data plain
    obtain ⟨v, read, rest⟩ := Noted.bind_eq_ok.1 taken
    obtain rfl : Value.str text = v := Except.ok.inj (held.symm.trans read)
    simp only [beq_iff_eq, given, if_false] at rest
    exact ⟨next, rest⟩
  constructor
  · cases check with
    | same => exact .cursor field
    | data v =>
      have short : (Link.parse? "/").isSome = true := by decide +kernel
      obtain ⟨link, parsed⟩ := Option.isSome_iff_exists.1 short
      obtain ⟨next, taken⟩ := linked "/" (by decide) (by simpa using slash)
      simp only [nextByLink, parsed] at taken
      obtain ⟨_, checked, -⟩ := Noted.bind_eq_ok.1 taken
      cases checked
  · intro c fits
    by_contra suspect
    obtain ⟨next, taken⟩ := linked (String.ofList ['/', '/', c]) (by simp)
      (by simp [slash, fits])
    rw [nextByLink, Link.parse?_of_isSuspect (by simpa using suspect)] at taken
    cases taken

theorem sound_of_trusted_offset {offsetArg limitArg itemsField pageSize : Value}
    (trusted : (Strategy.offset offsetArg limitArg itemsField pageSize).Trusted allowed) :
    (Strategy.offset offsetArg limitArg itemsField pageSize).Sound := by
  have takes (page : Page) (plain : page.data.Plain allowed) :
      ∃ next, nextByOffset offsetArg limitArg itemsField pageSize page firstCall = .ok next :=
    trusted ⟨.null, []⟩ page firstCall plain rfl
  have field : IsListPath itemsField := by
    refine isListPath_of_itemsOf allowed fun page plain => ?_
    obtain ⟨next, taken⟩ := takes page plain
    obtain ⟨items, listed, -⟩ := bind_eq_ok.1 taken
    exact ⟨items, listed⟩
  -- the limit is read on every page
  obtain ⟨page, plain, listed⟩ := field.exists_listing [] (by simp)
  obtain ⟨next, taken⟩ := takes page plain
  rw [nextByOffset, listed, ok_bind] at taken
  obtain ⟨limitValue, limited, taken⟩ := bind_eq_ok.1 taken
  obtain ⟨limit, read, -⟩ := bind_eq_ok.1 taken
  obtain ⟨key, rfl⟩ := argumentOr_nil.1 limited
  -- on a page that is longer, the name is needed
  have nulls : ∀ v ∈ List.replicate (limit.toNat + 1) Value.null, v.Plain allowed := by
    intro v member
    rw [List.eq_of_mem_replicate member]
    exact .null
  obtain ⟨page, plain, listed⟩ := field.exists_listing _ nulls
  obtain ⟨next, taken⟩ := takes page plain
  rw [nextByOffset, listed, ok_bind, limited, ok_bind, read, ok_bind,
    if_neg (by simp; omega)] at taken
  obtain ⟨_, -, taken⟩ := bind_eq_ok.1 taken
  obtain ⟨_, -, taken⟩ := bind_eq_ok.1 taken
  obtain ⟨changed, written, -⟩ := bind_eq_ok.1 taken
  exact .offset field key ⟨limit, read⟩ ((exists_withArgument_iff _ _ _).1 ⟨changed, written⟩)

theorem sound_of_trusted_numbered {pageArg itemsField firstPage : Value}
    (trusted : (Strategy.numbered pageArg itemsField firstPage).Trusted allowed) :
    (Strategy.numbered pageArg itemsField firstPage).Sound := by
  have takes (page : Page) (plain : page.data.Plain allowed) :
      ∃ next, nextByNumber pageArg itemsField firstPage page firstCall = .ok next :=
    trusted ⟨.null, []⟩ page firstCall plain rfl
  have field : IsListPath itemsField := by
    refine isListPath_of_itemsOf allowed fun page plain => ?_
    obtain ⟨next, taken⟩ := takes page plain
    obtain ⟨items, listed, -⟩ := bind_eq_ok.1 taken
    exact ⟨items, listed⟩
  -- where there is an item, the number and the name are needed
  obtain ⟨page, plain, listed⟩ := field.exists_listing [.null] (by simp [Value.Plain.null])
  obtain ⟨next, taken⟩ := takes page plain
  rw [nextByNumber, listed, ok_bind, if_neg (by simp)] at taken
  obtain ⟨value, numbered, taken⟩ := bind_eq_ok.1 taken
  obtain ⟨number, read, taken⟩ := bind_eq_ok.1 taken
  obtain ⟨changed, written, -⟩ := bind_eq_ok.1 taken
  obtain ⟨-, rfl⟩ := argumentOr_nil.1 numbered
  exact .numbered field ⟨number, read⟩ ((exists_withArgument_iff _ _ _).1 ⟨changed, written⟩)

/-- A strategy takes every page exactly if its parameters are sound, and its links fit if it follows
any. -/
theorem trusted_iff (slash : allowed '/' = true) :
    strategy.Trusted allowed ↔ strategy.Sound ∧ strategy.LinksFit allowed := by
  refine ⟨fun trusted => ?_, fun ⟨sound, links⟩ => trusted_of_sound sound links⟩
  cases strategy with
  | single => exact ⟨.single, nofun⟩
  | token => exact ⟨sound_of_trusted_token trusted, nofun⟩
  | cursor =>
    obtain ⟨sound, fits⟩ := sound_of_trusted_cursor slash trusted
    exact ⟨sound, fun _ => fits⟩
  | offset => exact ⟨sound_of_trusted_offset trusted, nofun⟩
  | numbered => exact ⟨sound_of_trusted_numbered trusted, nofun⟩

end Strategy

end Pagination

end Harvest
