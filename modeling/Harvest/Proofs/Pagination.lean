import Harvest.Pagination.Table
import Harvest.Proofs.Run

namespace Harvest

namespace Link

theorem samePath_iff {a b : String} :
    samePath a b = true ↔ Text.trimEnd (· == '/') a.toList = Text.trimEnd (· == '/') b.toList := by
  unfold samePath
  exact beq_iff_eq

@[simp] theorem samePath_refl (a : String) : samePath a a = true :=
  samePath_iff.2 rfl

theorem samePath_trans {a b c : String} (first : samePath a b = true)
    (second : samePath b c = true) : samePath a c = true :=
  samePath_iff.2 ((samePath_iff.1 first).trans (samePath_iff.1 second))

end Link

/-- The second call goes where the first one goes: only query arguments and slashes at the end of
the path may differ. -/
structure Call.Continues (first next : Call) : Prop where
  method : next.method = first.method
  headers : next.headers = first.headers
  body : next.body = first.body
  path : Link.samePath first.path next.path = true

namespace Call.Continues

theorem refl (c : Call) : Continues c c :=
  ⟨rfl, rfl, rfl, Link.samePath_refl c.path⟩

theorem trans {a b c : Call} (first : Continues a b) (second : Continues b c) : Continues a c where
  method := second.method.trans first.method
  headers := second.headers.trans first.headers
  body := second.body.trans first.body
  path := Link.samePath_trans first.path second.path

end Call.Continues

namespace Pagination

variable {current next : Call} {page : Page}

theorem argumentOr_text (queryArgs : Fields) (name : String) (default : Value) :
    argumentOr queryArgs (.str name) default =
      .ok ((Members.get? queryArgs name).getD default) := by
  have key : (Value.str name).key = .ok (some name) := by
    simp [Value.key, Value.isKey, Value.text?]
  rw [argumentOr, key]
  rfl

theorem valueAt_of_lookup {data : Value} {path : String} {found : Option Value}
    (looked : Value.lookup data path = .ok found) :
    valueAt data (.str path) = .ok (found.getD .null) := by
  simp only [valueAt, textOf, ok_bind, Value.lookupOrNull, looked, Except.map]
  rfl

theorem exists_itemsOf_iff {field : Value} : (∃ items, itemsOf page field = .ok items) ↔
    field.isBlank = true ∨ ∃ v, valueAt page.data field = .ok v := by
  unfold itemsOf
  extract_lets list
  have listed : ∀ found, ∃ items, list found = .ok items := by
    intro found
    dsimp only [list]
    split <;> exact ⟨_, rfl⟩
  by_cases blank : field.isBlank = true
  · rw [if_pos blank]
    exact iff_of_true (listed page.data) (.inl blank)
  · rw [if_neg blank, or_iff_right blank]
    constructor
    · rintro ⟨items, found⟩
      obtain ⟨v, read, -⟩ := bind_eq_ok.1 found
      exact ⟨v, read⟩
    · rintro ⟨v, read⟩
      rw [read]
      exact listed v

theorem withArgument_continues {name value : Value}
    (h : withArgument current name value = .ok next) : current.Continues next := by
  unfold withArgument at h
  split at h
  next s =>
    split at h
    · cases h
    · cases h
      exact ⟨rfl, rfl, rfl, Link.samePath_refl current.path⟩
  next => cases h

theorem nextByToken_continues {tokenField queryArg : Value}
    (h : nextByToken tokenField queryArg page current = .ok (some next)) :
    current.Continues next := by
  unfold nextByToken at h
  obtain ⟨token, -, h⟩ := bind_eq_ok.1 h
  split at h
  · cases h
  · obtain ⟨changed, argument, same⟩ := bind_eq_ok.1 h
    cases same
    exact withArgument_continues argument

theorem nextByOffset_continues {offsetArg limitArg itemsField pageSize : Value}
    (h : nextByOffset offsetArg limitArg itemsField pageSize page current = .ok (some next)) :
    current.Continues next := by
  unfold nextByOffset at h
  obtain ⟨items, -, h⟩ := bind_eq_ok.1 h
  obtain ⟨limitValue, -, h⟩ := bind_eq_ok.1 h
  obtain ⟨limit, -, h⟩ := bind_eq_ok.1 h
  split at h
  · cases h
  · obtain ⟨offsetValue, -, h⟩ := bind_eq_ok.1 h
    obtain ⟨offset, -, h⟩ := bind_eq_ok.1 h
    obtain ⟨changed, argument, same⟩ := bind_eq_ok.1 h
    cases same
    exact withArgument_continues argument

theorem nextByNumber_continues {pageArg itemsField firstPage : Value}
    (h : nextByNumber pageArg itemsField firstPage page current = .ok (some next)) :
    current.Continues next := by
  unfold nextByNumber at h
  obtain ⟨items, -, h⟩ := bind_eq_ok.1 h
  split at h
  · cases h
  · obtain ⟨numberValue, -, h⟩ := bind_eq_ok.1 h
    obtain ⟨number, -, h⟩ := bind_eq_ok.1 h
    obtain ⟨changed, argument, same⟩ := bind_eq_ok.1 h
    cases same
    exact withArgument_continues argument

theorem allows_samePath {check : PathCheck} {a b : String} (h : check.allows a b = .ok true) :
    Link.samePath a b = true := by
  cases check with
  | same => exact Except.ok.inj h
  | data v => cases h

theorem nextByLink_continues {check : PathCheck} {text : String}
    (h : (nextByLink check current text).result = .ok (some next)) : current.Continues next := by
  unfold nextByLink at h
  split at h
  next => cases h
  next link parsed =>
    obtain ⟨allowed, checked, h⟩ := Noted.bind_eq_ok.1 h
    cases allowed with
    | false =>
      obtain ⟨_, -, stopped⟩ := Noted.bind_eq_ok.1 h
      cases stopped
    | true =>
      cases h
      exact ⟨rfl, rfl, rfl, allows_samePath checked⟩

theorem nextByCursor_continues {cursorField : Value} {check : PathCheck}
    (h : (nextByCursor cursorField check page current).result = .ok (some next)) :
    current.Continues next := by
  unfold nextByCursor at h
  obtain ⟨found, -, h⟩ := Noted.bind_eq_ok.1 h
  split at h
  next text =>
    split at h
    · cases h
    · exact nextByLink_continues h
  next => cases h

/-- Whatever a page says, the next call continues the current one. -/
theorem next_continues {strategy : Strategy} {history : History}
    (h : (strategy.next history page current).result = .ok (some next)) :
    current.Continues next := by
  cases strategy with
  | single => cases h
  | token tokenField queryArg => exact nextByToken_continues h
  | cursor cursorField check => exact nextByCursor_continues h
  | offset offsetArg limitArg itemsField pageSize => exact nextByOffset_continues h
  | numbered pageArg itemsField firstPage => exact nextByNumber_continues h

theorem key_readsData (v : Value) : ReadsData v.key := by
  intro f h
  unfold Value.key at h
  split at h <;> cases h
  rfl

theorem textOf_readsData (v : Value) : ReadsData (textOf v) := by
  intro f h
  unfold textOf at h
  split at h <;> cases h
  rfl

theorem valueAt_readsData (data field : Value) : ReadsData (valueAt data field) := by
  refine (textOf_readsData field).bind fun path => ?_
  intro f h
  split at h <;> cases h
  rfl

theorem integerOf_readsData (v : Value) : ReadsData (integerOf v) := by
  intro f h
  unfold integerOf at h
  split at h
  · cases h
  · cases h
  · cases h
  · split at h <;> cases h
    rfl
  · cases h
    rfl

theorem argumentOr_readsData (queryArgs : Fields) (name default : Value) :
    ReadsData (argumentOr queryArgs name default) := by
  refine (key_readsData name).bind fun key => ?_
  cases key <;> exact .ok _

theorem withArgument_readsData (c : Call) (name value : Value) :
    ReadsData (withArgument c name value) := by
  intro f h
  unfold withArgument at h
  split at h
  · split at h <;> cases h
    rfl
  · cases h
    rfl

theorem itemsOf_readsData (page : Page) (field : Value) : ReadsData (itemsOf page field) := by
  unfold itemsOf
  extract_lets list
  have listed : ∀ found, ReadsData (list found) := by
    intro found
    dsimp only [list]
    split <;> exact .ok _
  split
  · exact (ReadsData.ok page.data).bind listed
  · exact (valueAt_readsData page.data field).bind listed

theorem allows_readsData (check : PathCheck) (a b : String) : ReadsData (check.allows a b) := by
  cases check with
  | same => exact .ok _
  | data v =>
    rintro f ⟨⟩
    rfl

theorem nextByToken_readsData (tokenField queryArg : Value) (page : Page) (current : Call) :
    ReadsData (nextByToken tokenField queryArg page current) := by
  refine (valueAt_readsData page.data tokenField).bind fun token => ?_
  split
  · exact .ok _
  · exact (withArgument_readsData current queryArg token).bind fun _ => .ok _

theorem nextByOffset_readsData (offsetArg limitArg itemsField pageSize : Value) (page : Page)
    (current : Call) :
    ReadsData (nextByOffset offsetArg limitArg itemsField pageSize page current) := by
  refine (itemsOf_readsData page itemsField).bind fun items => ?_
  refine (argumentOr_readsData _ _ _).bind fun limitValue => ?_
  refine (integerOf_readsData limitValue).bind fun limit => ?_
  split
  · exact .ok _
  · refine (argumentOr_readsData _ _ _).bind fun offsetValue => ?_
    refine (integerOf_readsData offsetValue).bind fun offset => ?_
    exact (withArgument_readsData current offsetArg _).bind fun _ => .ok _

theorem nextByNumber_readsData (pageArg itemsField firstPage : Value) (page : Page)
    (current : Call) : ReadsData (nextByNumber pageArg itemsField firstPage page current) := by
  refine (itemsOf_readsData page itemsField).bind fun items => ?_
  split
  · exact .ok _
  · refine (argumentOr_readsData _ _ _).bind fun numberValue => ?_
    refine (integerOf_readsData numberValue).bind fun number => ?_
    exact (withArgument_readsData current pageArg _).bind fun _ => .ok _

theorem nextByLink_readsData (check : PathCheck) (current : Call) (text : String) :
    ReadsData (nextByLink check current text).result := by
  unfold nextByLink
  split
  · rintro f ⟨⟩
    rfl
  next link parsed =>
    rw [Noted.result_bind]
    refine (allows_readsData check _ _).bind fun allowed => ?_
    cases allowed <;> exact .ok _

theorem nextByCursor_readsData (cursorField : Value) (check : PathCheck) (page : Page)
    (current : Call) : ReadsData (nextByCursor cursorField check page current).result := by
  unfold nextByCursor
  rw [Noted.result_bind]
  refine (valueAt_readsData page.data cursorField).bind fun found => ?_
  split
  next text =>
    split
    · exact .ok _
    · exact nextByLink_readsData check current text
  · exact .ok _

/-- A strategy never finds fault with the configuration. -/
theorem next_readsData (strategy : Strategy) (history : History) (page : Page) (current : Call) :
    ReadsData (strategy.next history page current).result := by
  cases strategy with
  | single => exact .ok none
  | token tokenField queryArg => exact nextByToken_readsData tokenField queryArg page current
  | cursor cursorField check => exact nextByCursor_readsData cursorField check page current
  | offset offsetArg limitArg itemsField pageSize =>
    exact nextByOffset_readsData offsetArg limitArg itemsField pageSize page current
  | numbered pageArg itemsField firstPage =>
    exact nextByNumber_readsData pageArg itemsField firstPage page current

end Pagination

end Harvest
