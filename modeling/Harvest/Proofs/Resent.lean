import Mathlib
import Harvest.Proofs.Leads
import Harvest.Proofs.NumberedPages
import Harvest.Proofs.SameRequest
import Harvest.Proofs.TokenChain

namespace Harvest

open Pagination Wire Wire.Setup

namespace Traversal

variable {setup : Setup} {first c d : Call}

inductive FollowsLinks : Paging → Prop
  | cursor {cursorField : Value} {check : PathCheck} :
    FollowsLinks (.strategy (.cursor cursorField check))
  | links {cursorField : Value} {allows : String → String → Except Failure Bool} :
    FollowsLinks (.links cursorField allows)

/-- What makes a later call be sent like an earlier one. -/
inductive Resends (setup : Setup) (first c d : Call) : Paging → Prop
  | token {tokenField : Value} {queryArg : String} {v w : Value}
    (earlier : Members.get? c.queryArgs queryArg = some v)
    (later : Members.get? d.queryArgs queryArg = some w) (differ : v ≠ w)
    (text : argumentText? v = argumentText? w) :
    Resends setup first c d (.strategy (.token tokenField (.str queryArg)))
  | argument {paging : Paging} (byLinks : FollowsLinks paging) {name text : String} {v : Value}
    (given : Members.get? first.queryArgs name = some v)
    (earlier : Members.get? c.queryArgs name = some v) (noText : ∀ s, v ≠ .str s)
    (same : argumentText? v = some text)
    (later : Members.get? d.queryArgs name = some (.str text)) :
    Resends setup first c d paging
  | slashes {cursorField : Value} {check : PathCheck} (differ : c.path ≠ d.path)
    (earlier : OnlySlashes c.path) (later : OnlySlashes d.path)
    (based : setup.base.getD "" ≠ "") :
    Resends setup first c d (.strategy (.cursor cursorField check))
  | address {cursorField : Value} {allows : String → String → Except Failure Bool}
    (differ : c.path ≠ d.path) (same : setup.urlFor c.path = setup.urlFor d.path)
    (based : setup.base.getD "" ≠ "")
    (alike : c.path.toList.dropWhile (· == '/') = d.path.toList.dropWhile (· == '/') ∨
      isAbsolute c.path ≠ isAbsolute d.path) :
    Resends setup first c d (.links cursorField allows)

theorem Resends.of_token {tokenField queryArg : Value}
    (apart : Apart (.strategy (.token tokenField queryArg)) first c d)
    (distinct : (Members.keys c.queryArgs).Nodup) (same : setup.SameRequest c d) :
    Resends setup first c d (.strategy (.token tokenField queryArg)) := by
  obtain ⟨-, ⟨name, w, rfl, given, rfl⟩, differ⟩ := apart
  have sent := same.argument distinct (Members.nodup_keys_put distinct name w) name
  rw [Call.get?_carrying, Option.bind_some] at sent
  cases earlier : Members.get? c.queryArgs name with
  | none =>
    rw [earlier, Option.bind_none] at sent
    rw [argumentText?_eq_none_iff.1 sent.symm] at given
    cases given
  | some v =>
    rw [earlier, Option.bind_some] at sent
    refine .token earlier Call.get?_carrying ?_ sent
    rintro rfl
    exact differ (by rw [Call.carrying, Members.put_get? earlier])

theorem not_sameRequest_of_counts {arg default : Value} (counts : Counts arg default c d)
    (distinct : (Members.keys c.queryArgs).Nodup) : ¬ setup.SameRequest c d := by
  intro same
  obtain ⟨name, m, n, rfl, read, more, rfl⟩ := counts
  have sent := same.argument distinct (Members.nodup_keys_put distinct name (.int n)) name
  rw [Call.get?_carrying, Option.bind_some, argumentText?_int] at sent
  obtain ⟨v, earlier, text⟩ := Option.bind_eq_some_iff.1 sent
  rw [argumentOr_text, earlier] at read
  exact absurd (eq_of_argumentText? read text) more.ne

theorem Resends.of_linked {paging : Paging} (byLinks : FollowsLinks paging)
    (begins : c = first ∨ Linked first c) (linked : Linked c d) (path : c.path = d.path)
    (differ : c.fingerprint ≠ d.fingerprint) (distinct : (Members.keys c.queryArgs).Nodup)
    (same : setup.SameRequest c d) : Resends setup first c d paging := by
  obtain ⟨name, changed⟩ : ∃ name,
      Members.get? d.queryArgs name ≠ Members.get? c.queryArgs name := by
    by_contra unchanged
    push Not at unchanged
    exact differ (by rw [linked.eq_of_same distinct path unchanged])
  obtain ⟨text, later⟩ := (linked.argument name).resolve_left changed
  have sent := same.argument distinct (linked.nodup distinct) name
  rw [later, Option.bind_some, argumentText?_str] at sent
  obtain ⟨v, earlier, spelled⟩ := Option.bind_eq_some_iff.1 sent
  have noText : ∀ s, v ≠ .str s := by
    rintro s rfl
    rw [argumentText?_str, Option.some.injEq] at spelled
    exact changed (by rw [later, earlier, spelled])
  have given : Members.get? first.queryArgs name = some v := by
    rcases begins with rfl | leads
    · exact earlier
    · rcases leads.argument name with kept | ⟨s, linkedText⟩
      · rw [← kept, earlier]
      · rw [earlier, Option.some.injEq] at linkedText
        exact absurd linkedText (noText s)
  exact .argument byLinks given earlier noText spelled later

theorem Resends.of_cursor {cursorField : Value} {check : PathCheck}
    (apart : Apart (.strategy (.cursor cursorField check)) first c d)
    (distinct : (Members.keys c.queryArgs).Nodup) (same : setup.SameRequest c d) :
    Resends setup first c d (.strategy (.cursor cursorField check)) := by
  obtain ⟨begins, ⟨stays, linked⟩, differ⟩ := apart
  by_cases path : c.path = d.path
  · exact .of_linked .cursor (begins.imp_right And.right) linked path differ distinct same
  · obtain ⟨left, right, based⟩ := onlySlashes_of_urlFor_eq stays path same.url
    exact .slashes path left right based

theorem Resends.of_links {cursorField : Value} {allows : String → String → Except Failure Bool}
    (apart : Apart (.links cursorField allows) first c d)
    (distinct : (Members.keys c.queryArgs).Nodup) (same : setup.SameRequest c d) :
    Resends setup first c d (.links cursorField allows) := by
  obtain ⟨begins, linked, differ⟩ := apart
  by_cases path : c.path = d.path
  · exact .of_linked .links begins linked path differ distinct same
  · obtain ⟨based, alike⟩ := alike_of_urlFor_eq path same.url
    exact .address path same.url based alike

/-- No two calls of a fetch are sent as one and the same request, unless a token is spelled like the
value it replaces, a link spells an argument of the first call as text, or it leads to another path
with the same address. Counting strategies never do such a thing. -/
theorem requests_differ (setup : Setup) {σ : Type} (client : String) (execute : Client σ)
    (endpoint : Value) (paging : Paging) (limit : Nat) (first : Value × Call) (w : σ)
    (distinct : (Members.keys first.2.queryArgs).Nodup) :
    (callsIn (fetch client execute endpoint paging.next limit first w).events).Pairwise
      fun x y => setup.SameRequest x.2 y.2 → Resends setup first.2 x.2 y.2 paging := by
  obtain ⟨calls, made, apart⟩ := calls_lead client execute endpoint paging limit first w
  rw [made, List.pairwise_map]
  refine apart.imp fun apart same => ?_
  have names : (Members.keys _).Nodup := apart.begins.elim (fun same => same ▸ distinct)
    fun leads => leads.nodup distinct
  cases paging with
  | links => exact .of_links apart names same
  | strategy strategy =>
    cases strategy with
    | single => cases apart.leads
    | token => exact .of_token apart names same
    | cursor => exact .of_cursor apart names same
    | offset | numbered => exact absurd same (not_sameRequest_of_counts apart.leads names)

def numberCall (v : Value) : Call :=
  ⟨"/a", .get, [("page", v)], [], .null⟩

def bare (items : List Value) : Page :=
  ⟨.arr items, 200, []⟩

theorem number_not_resent :
    (Members.keys (numberCall (.str "1")).queryArgs).Nodup ∧
    callsIn (fetch "main" (shelf bare 1 1 [.int 5]) .null (byNumber "page" .null 1) 2
      (.obj [], numberCall (.str "1")) 0).events =
        [("main", numberCall (.str "1")), ("main", numberCall (.int 2))] ∧
    ∀ setup : Setup, ¬ setup.SameRequest (numberCall (.str "1")) (numberCall (.int 2)) := by
  have distinct : (Members.keys (numberCall (.str "1")).queryArgs).Nodup := by decide
  have one : Text.readInt? "1" = some 1 := by decide +kernel
  have number : numberOf "page" 1 (numberCall (.str "1")) = .ok 1 := by
    rw [numberOf, counterOf, argumentOr_text]
    change integerOf (.str "1") = .ok 1
    rw [integerOf, one]
  have answered : shelf bare 1 1 [.int 5] (numberCall (.str "1")) 0 =
      (.page (bare [.int 5]), 1) := by
    rw [shelf, number]
    rfl
  have listed : itemsOf (bare [.int 5]) .null = .ok [.int 5] := rfl
  have asked : (byNumber "page" .null 1 ⟨.obj [], [numberCall (.str "1")]⟩
      (bare [.int 5]) (numberCall (.str "1"))).result =
        .ok (some (numberCall (.int 2))) :=
    nextByNumber_nonempty (by decide) listed (by simp) number
  have calls : callsIn (fetch "main" (shelf bare 1 1 [.int 5]) .null (byNumber "page" .null 1) 2
      (.obj [], numberCall (.str "1")) 0).events =
        [("main", numberCall (.str "1")), ("main", numberCall (.int 2))] :=
    callsIn_fetch_two (opening_empty (by decide +kernel)) answered asked (by decide +kernel)
      (by decide +kernel)
  refine ⟨distinct, calls, fun setup same => ?_⟩
  have differ := requests_differ setup "main" (shelf bare 1 1 [.int 5]) .null
    (.strategy (.numbered (.str "page") .null (.int 1))) 2 (.obj [], numberCall (.str "1")) 0 distinct
  change (callsIn (fetch _ _ _ (byNumber "page" .null 1) 2 _ 0).events).Pairwise _ at differ
  rw [calls] at differ
  have resends := (List.pairwise_cons.1 differ).1 _ (List.mem_singleton_self _) same
  cases resends with
  | argument byLinks => cases byLinks

theorem sameRequest_numberCall (setup : Setup) {v w : Value}
    (text : argumentText? v = argumentText? w) :
    setup.SameRequest (numberCall v) (numberCall w) where
  verb := rfl
  url := rfl
  params name := by
    have distinct (u : Value) : (Members.keys (numberCall u).queryArgs).Nodup :=
      List.nodup_singleton _
    change (Members.get? (encodeArguments _) name).map _ =
      (Members.get? (encodeArguments _) name).map _
    rw [get?_encodeArguments (distinct v), get?_encodeArguments (distinct w)]
    by_cases here : "page" = name <;> simp [numberCall, Members.get?, here, text]
  headers _ := rfl
  body := rfl

def always (page : Page) : Client Unit :=
  fun _ w => (.page page, w)

def tokenPage : Page :=
  ⟨.obj [("next", .int 1)], 200, []⟩

theorem token_resent :
    callsIn (fetch "main" (always tokenPage) .null (byToken "next" "page") 2
      (.obj [], numberCall (.str "1")) ()).events =
        [("main", numberCall (.str "1")), ("main", numberCall (.int 1))] := by
  have held : Value.lookup tokenPage.data "next" = .ok (some (.int 1)) := by cbv
  have asked : (byToken "next" "page" ⟨.obj [], [numberCall (.str "1")]⟩ tokenPage
      (numberCall (.str "1"))).result = .ok (some (numberCall (.int 1))) := by
    change nextByToken _ _ _ _ = _
    rw [nextByToken_eq _ (by decide) held, tokenOf?, held]
    rfl
  exact callsIn_fetch_two (opening_empty (by decide +kernel)) rfl asked (by decide +kernel)
    (by decide +kernel)

theorem callsIn_fetch_linked (allows : String → String → Except Failure Bool)
    {current next : Call} {text : String} {link : Link}
    (written : current.isWritable = true) (nonempty : text ≠ "")
    (parsed : Link.parse? text = some link) (leads : followed current link = next)
    (allowed : allows current.path next.path = .ok true) (writable : next.isWritable = true)
    (differ : current.fingerprint ≠ next.fingerprint) :
    callsIn (fetch "main" (always (Strategy.linking text)) .null
      (Paging.links (.str "next") allows).next 2 (.obj [], current) ()).events =
        [("main", current), ("main", next)] := by
  have parts : Value.splitPath "next" = ["next"] := by decide +kernel
  have held : Value.lookup (Strategy.linking text).data "next" = .ok (some (.str text)) := by
    rw [Value.lookup, parts]
    rfl
  have asked : ((Paging.links (.str "next") allows).next ⟨.obj [], [current]⟩
      (Strategy.linking text) current).result = .ok (some next) := by
    rw [← leads] at allowed ⊢
    exact congrArg Noted.result (nextByLinks_of_parse held nonempty parsed allowed)
  exact callsIn_fetch_two (opening_empty written) rfl asked writable differ

theorem argument_resent :
    callsIn (fetch "main" (always (Strategy.linking "?page=1")) .null Strategy.byLink.next 2
      (.obj [], numberCall (.int 1)) ()).events =
        [("main", numberCall (.int 1)), ("main", numberCall (.str "1"))] := by
  have arguments : Link.queryArguments ['p', 'a', 'g', 'e', '=', '1'] = [("page", "1")] := by
    decide +kernel
  have parsed : Link.parse? "?page=1" = some ⟨"", ['p', 'a', 'g', 'e', '=', '1']⟩ := rfl
  have leads : followed (numberCall (.int 1)) ⟨"", ['p', 'a', 'g', 'e', '=', '1']⟩ =
      numberCall (.str "1") := by
    simp [followed, arguments, numberCall, Members.put]
  exact callsIn_fetch_linked PathCheck.same.allows (by decide +kernel) (by decide) parsed leads
    rfl (by decide +kernel) (by decide +kernel)

theorem slashes_resent :
    callsIn (fetch "main" (always (Strategy.linking "https://h//")) .null Strategy.byLink.next 2
      (.obj [], plainCall "/") ()).events =
        [("main", plainCall "/"), ("main", plainCall "//")] := by
  have parsed : Link.parse? "https://h//" = some ⟨"//", []⟩ := rfl
  exact callsIn_fetch_linked PathCheck.same.allows (by decide +kernel) (by decide) parsed rfl
    (by rfl) (by decide +kernel) (by decide +kernel)

theorem path_resent :
    callsIn (fetch "main" (always (Strategy.linking "https://h//a")) .null
      (Paging.links (.str "next") fun _ _ => .ok true).next 2 (.obj [], plainCall "/a") ()).events =
        [("main", plainCall "/a"), ("main", plainCall "//a")] := by
  have parsed : Link.parse? "https://h//a" = some ⟨"//a", []⟩ := rfl
  exact callsIn_fetch_linked _ (by decide +kernel) (by decide) parsed rfl rfl (by decide +kernel)
    (by decide +kernel)

def hostSetup : Setup :=
  ⟨some "https://h", .null, []⟩

theorem sameRequest_plainCall {setup : Setup} {path next : String}
    (url : setup.urlFor path = setup.urlFor next) :
    setup.SameRequest (plainCall path) (plainCall next) where
  verb := rfl
  url := url
  params _ := rfl
  headers _ := rfl
  body := rfl

/-- Requests are sent twice in each of the ways. -/
theorem requests_resent :
    (callsIn (fetch "main" (always tokenPage) .null (byToken "next" "page") 2
        (.obj [], numberCall (.str "1")) ()).events =
          [("main", numberCall (.str "1")), ("main", numberCall (.int 1))] ∧
      hostSetup.SameRequest (numberCall (.str "1")) (numberCall (.int 1))) ∧
    (callsIn (fetch "main" (always (Strategy.linking "?page=1")) .null Strategy.byLink.next 2
        (.obj [], numberCall (.int 1)) ()).events =
          [("main", numberCall (.int 1)), ("main", numberCall (.str "1"))] ∧
      hostSetup.SameRequest (numberCall (.int 1)) (numberCall (.str "1"))) ∧
    (callsIn (fetch "main" (always (Strategy.linking "https://h//")) .null Strategy.byLink.next 2
        (.obj [], plainCall "/") ()).events =
          [("main", plainCall "/"), ("main", plainCall "//")] ∧
      hostSetup.SameRequest (plainCall "/") (plainCall "//")) ∧
    callsIn (fetch "main" (always (Strategy.linking "https://h//a")) .null
        (Paging.links (.str "next") fun _ _ => .ok true).next 2
        (.obj [], plainCall "/a") ()).events =
          [("main", plainCall "/a"), ("main", plainCall "//a")] ∧
      hostSetup.SameRequest (plainCall "/a") (plainCall "//a") :=
  ⟨⟨token_resent, sameRequest_numberCall _ (by decide +kernel)⟩,
    ⟨argument_resent, sameRequest_numberCall _ (by decide +kernel)⟩,
    ⟨slashes_resent, sameRequest_plainCall (by decide +kernel)⟩,
    path_resent, sameRequest_plainCall (by decide +kernel)⟩

end Traversal

end Harvest
