import Mathlib
import Harvest.Proofs.Derailed
import Harvest.Proofs.NumberedPages
import Harvest.Proofs.TokenChain

namespace Harvest

/-- The next call is the current one with this query argument, and the same in all else. -/
structure Call.ChangedAt (current : Call) (name : String) (v : Value) (next : Call) : Prop where
  path : next.path = current.path
  method : next.method = current.method
  headers : next.headers = current.headers
  body : next.body = current.body
  argument : Members.get? next.queryArgs name = some v
  others : ∀ other, other ≠ name →
    Members.get? next.queryArgs other = Members.get? current.queryArgs other
  names : Members.keys next.queryArgs = if Members.has current.queryArgs name then
    Members.keys current.queryArgs else Members.keys current.queryArgs ++ [name]

variable {current : Call} {name : String} {v : Value}

theorem Call.changedAt_carrying : current.ChangedAt name v (current.carrying name v) where
  path := rfl
  method := rfl
  headers := rfl
  body := rfl
  argument := get?_carrying
  others _ different := Members.get?_put_of_ne _ _ different
  names := Members.keys_put _ _ _

namespace Pagination

def countOf (name : String) (default : Int) (call : Call) : Int :=
  match Members.get? call.queryArgs name with
  | some (.int n) => n
  | _ => default

theorem read_of_counted {names : List String} (counted : Counted names current)
    (member : name ∈ names) (default : Int) :
    (argumentOr current.queryArgs (.str name) (.int default) >>= integerOf) =
      .ok (countOf name default current) := by
  rw [argumentOr_text, countOf]
  cases found : Members.get? current.queryArgs name with
  | none => rfl
  | some v =>
    obtain ⟨n, rfl⟩ := counted name member v found
    rfl

/-- The page asks the strategy to go on with a paging value, which it writes under this name. -/
inductive Continues (page : Page) (current : Call) (name : String) : Strategy → Value → Prop
  | token {tokenField : String} {token : Value} (held : tokenOf? tokenField page = some token) :
    Continues page current name (.token (.str tokenField) (.str name)) token
  | numbered {itemsField : Value} {items : List Value} {firstPage : Int}
    (lists : Lists itemsField page items) (nonempty : items ≠ []) :
    Continues page current name (.numbered (.str name) itemsField (.int firstPage))
      (.int (countOf name firstPage current + 1))
  | offset {limitArg : String} {itemsField : Value} {items : List Value} {pageSize : Int}
    (lists : Lists itemsField page items) (nonempty : items ≠ [])
    (full : countOf limitArg pageSize current ≤ items.length) :
    Continues page current name (.offset (.str name) (.str limitArg) itemsField (.int pageSize))
      (.int (countOf name 0 current + items.length))

variable {page : Page} {strategy : Strategy}

theorem nextByToken_held {tokenField : String} {queryArg : Value}
    (held : tokenOf? tokenField page = some v) :
    nextByToken (.str tokenField) queryArg page current =
      (withArgument current queryArg v).map some := by
  obtain ⟨found, nonnull, nonempty⟩ := tokenOf?_eq_some.1 held
  have given : isNoToken v = false :=
    Bool.eq_false_of_not_eq_true fun none => (isNoToken_iff.1 none).elim nonnull nonempty
  rw [nextByToken, valueAt_of_lookup found]
  simp [given, Except.map, bind, Except.bind, pure, Except.pure]

theorem nextByNumber_continued {itemsField : Value} {items : List Value} {firstPage : Int}
    (counted : Counted [name] current) (lists : Lists itemsField page items)
    (nonempty : items ≠ []) :
    nextByNumber (.str name) itemsField (.int firstPage) page current =
      (withArgument current (.str name) (.int (countOf name firstPage current + 1))).map some := by
  obtain ⟨argument, found, read⟩ := bind_eq_ok.1
    (read_of_counted counted (List.mem_singleton_self name) firstPage)
  simp only [nextByNumber, itemsOf_of_lists lists, found, read, ok_bind]
  rw [if_neg (by simpa using nonempty)]
  rfl

theorem nextByOffset_continued {limitArg : String} {itemsField : Value} {items : List Value}
    {pageSize : Int} (counted : Counted [name, limitArg] current)
    (lists : Lists itemsField page items) (nonempty : items ≠ [])
    (full : countOf limitArg pageSize current ≤ items.length) :
    nextByOffset (.str name) (.str limitArg) itemsField (.int pageSize) page current =
      (withArgument current (.str name)
        (.int (countOf name 0 current + items.length))).map some := by
  obtain ⟨limit, limitFound, limitRead⟩ := bind_eq_ok.1
    (read_of_counted counted (show limitArg ∈ [name, limitArg] by simp) pageSize)
  obtain ⟨place, placeFound, placeRead⟩ := bind_eq_ok.1
    (read_of_counted counted (show name ∈ [name, limitArg] by simp) 0)
  simp only [nextByOffset, itemsOf_of_lists lists, limitFound, limitRead, placeFound, placeRead,
    ok_bind]
  rw [if_neg (by simpa [nonempty] using full)]
  rfl

namespace Strategy

theorem next_of_continues (counted : Counted strategy.counters current)
    (continues : Continues page current name strategy v) (history : History) :
    strategy.next history page current =
      Noted.lift ((withArgument current (.str name) v).map some) := by
  cases continues with
  | token held => exact congrArg Noted.lift (nextByToken_held held)
  | numbered lists nonempty =>
    exact congrArg Noted.lift (nextByNumber_continued counted lists nonempty)
  | offset lists nonempty full =>
    exact congrArg Noted.lift (nextByOffset_continued counted lists nonempty full)

theorem next_of_taken (counted : Counted strategy.counters current)
    (continues : Continues page current "current" strategy v) (history : History) :
    strategy.next history page current = Noted.fail .misfit :=
  next_of_continues counted continues history

/-- On a page that asks to go on, the next call carries the paging value under the given name and is
the current one in all else, whatever the name, unless the name is the one that is taken. Under that
one, every page that asks to go on is a failure. -/
theorem next_writes_iff (counted : Counted strategy.counters current)
    (continues : Continues page current name strategy v) (history : History) :
    ((∃ next, strategy.next history page current = pure (some next) ∧
      current.ChangedAt name v next) ↔ name ≠ "current") ∧
    (strategy.next history page current = Noted.fail .misfit ↔ name = "current") := by
  by_cases taken : name = "current"
  · subst taken
    rw [next_of_taken counted continues history]
    refine ⟨⟨?_, fun free => absurd rfl free⟩, ⟨fun _ => rfl, fun _ => rfl⟩⟩
    rintro ⟨next, same, -⟩
    cases same
  · rw [next_of_continues counted continues history, withArgument_eq_carrying taken]
    refine ⟨⟨fun _ => taken, fun _ => ⟨_, rfl, Call.changedAt_carrying⟩⟩, ⟨?_, ?_⟩⟩
    · intro same
      cases same
    · exact fun same => absurd same taken

def namedCall (name : String) : Call :=
  ⟨"/a", .get, [("size", .int 2), (name, .int 4), ("q", .str "x")], [("h", .str "1")], .bool true⟩

def pairPage : Page :=
  ⟨.obj [("items", .arr [.int 1, .int 2]), ("next", .str "t")], 200, []⟩

theorem pairPage_lists : Lists (.str "items") pairPage [.int 1, .int 2] := by
  rw [Lists, if_neg (by simp [Value.isBlank])]
  exact ⟨"items", rfl, by cbv⟩

theorem unspoken_names_written :
    let byOffset := Strategy.offset (.str "self.*") (.str "size") (.str "items") (.int 100)
    Counted byOffset.counters (namedCall "self.*") ∧
    Continues pairPage (namedCall "self.*") "self.*" byOffset (.int 6) ∧
    ∃ next, byOffset.next ⟨.null, []⟩ pairPage (namedCall "self.*") = pure (some next) ∧
      (namedCall "self.*").ChangedAt "self.*" (.int 6) next := by
  intro byOffset
  have counted : Counted byOffset.counters (namedCall "self.*") := by
    intro name member v found
    rcases List.mem_pair.1 member with rfl | rfl
    · exact ⟨4, (Option.some.inj found).symm⟩
    · exact ⟨2, (Option.some.inj found).symm⟩
  have continues : Continues pairPage (namedCall "self.*") "self.*" byOffset (.int 6) :=
    .offset pairPage_lists (by simp) (by decide)
  exact ⟨counted, continues, (next_writes_iff counted continues _).1.2 (by decide)⟩

/-- No token, number or offset can be written under the name that is taken. -/
theorem taken_names_fail :
    let byToken := Strategy.token (.str "next") (.str "current")
    let byNumber := Strategy.numbered (.str "current") (.str "items") (.int 1)
    let byOffset := Strategy.offset (.str "current") (.str "size") (.str "items") (.int 2)
    let history : History := ⟨.obj [], [firstCall]⟩
    (Counted byToken.counters firstCall ∧
      Continues pairPage firstCall "current" byToken (.str "t") ∧
      byToken.next history pairPage firstCall = Noted.fail .misfit) ∧
    (Counted byNumber.counters firstCall ∧
      Continues pairPage firstCall "current" byNumber (.int 2) ∧
      byNumber.next history pairPage firstCall = Noted.fail .misfit) ∧
    (Counted byOffset.counters firstCall ∧
      Continues pairPage firstCall "current" byOffset (.int 2) ∧
      byOffset.next history pairPage firstCall = Noted.fail .misfit) := by
  intro byToken byNumber byOffset history
  have token : Continues pairPage firstCall "current" byToken (.str "t") := .token (by cbv)
  have number : Continues pairPage firstCall "current" byNumber (.int 2) :=
    .numbered pairPage_lists (by simp)
  have offset : Continues pairPage firstCall "current" byOffset (.int 2) :=
    .offset pairPage_lists (by simp) (by decide)
  exact ⟨⟨counted_firstCall, token, next_of_taken counted_firstCall token history⟩,
    ⟨counted_firstCall, number, next_of_taken counted_firstCall number history⟩,
    ⟨counted_firstCall, offset, next_of_taken counted_firstCall offset history⟩⟩

end Strategy

end Pagination

end Harvest
