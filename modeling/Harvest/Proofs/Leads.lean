import Mathlib
import Harvest.Proofs.Carried
import Harvest.Proofs.Delivered
import Harvest.Proofs.PageLoop
import Harvest.Proofs.SameRequest
import Harvest.Proofs.Staging

namespace Harvest

namespace Members

variable {α : Type} {ms upper : List (String × α)}

theorem keys_prefix_putAll : keys ms <+: keys (putAll ms upper) := by
  induction upper generalizing ms with
  | nil => exact List.prefix_rfl
  | cons m rest ih =>
    have first : keys ms <+: keys (put ms m.1 m.2) := by
      rw [keys_put]
      split
      · exact List.prefix_rfl
      · exact List.prefix_append _ _
    rw [putAll_cons]
    exact first.trans ih

theorem nodup_keys_putAll (distinct : (keys ms).Nodup) : (keys (putAll ms upper)).Nodup := by
  induction upper generalizing ms with
  | nil => exact distinct
  | cons m rest ih =>
    rw [putAll_cons]
    exact ih (nodup_keys_put distinct m.1 m.2)

theorem putAll_append (others : List (String × α)) :
    putAll (putAll ms upper) others = putAll ms (upper ++ others) := by
  rw [putAll, putAll, putAll, List.foldl_append]

theorem put_get? {key : String} {v : α} (found : get? ms key = some v) : put ms key v = ms := by
  induction ms with
  | nil => cases found
  | cons m rest ih =>
    obtain ⟨name, u⟩ := m
    by_cases here : name = key
    · have same : u = v := by simpa [get?, here] using found
      rw [put, if_pos here, here, same]
    · have later : get? rest key = some v := by simpa [get?, here] using found
      rw [put, if_neg here, ih later]

theorem get?_putAll_cases (name : String) : get? (putAll ms upper) name = get? ms name ∨
    ∃ m ∈ upper, get? (putAll ms upper) name = some m.2 := by
  induction upper generalizing ms with
  | nil => exact .inl rfl
  | cons m rest ih =>
    rw [putAll_cons]
    have written : get? (putAll (put ms m.1 m.2) rest) name = get? (put ms m.1 m.2) name ∨
        ∃ m' ∈ rest, get? (putAll (put ms m.1 m.2) rest) name = some m'.2 := ih
    rcases written with before | ⟨later, member, found⟩
    · by_cases same : name = m.1
      · rw [same, get?_put_self] at before
        exact .inr ⟨m, List.mem_cons_self, same ▸ before⟩
      · rw [get?_put_of_ne _ _ same] at before
        exact .inl before
    · exact .inr ⟨later, List.mem_cons_of_mem _ member, found⟩

theorem putAll_eq_self (distinct : (keys ms).Nodup)
    (same : ∀ name, get? (putAll ms upper) name = get? ms name) : putAll ms upper = ms := by
  refine eq_of_get?_eq distinct ?_ same
  obtain ⟨new, names⟩ : keys ms <+: keys (putAll ms upper) := keys_prefix_putAll
  have none : new = [] := by
    rw [List.eq_nil_iff_forall_not_mem]
    intro name inside
    have whole : (keys (putAll ms upper)).Nodup := nodup_keys_putAll distinct
    rw [← names] at whole
    have absent : get? ms name = Option.none :=
      get?_eq_none_iff.2 fun early => (List.nodup_append.1 whole).2.2 name early name inside rfl
    rw [← same, get?_eq_none_iff, ← names] at absent
    exact absent (List.mem_append_right _ inside)
  rw [← names, none, List.append_nil]

end Members

namespace Pagination

variable {c d e : Call} {page : Page}

/-- A later call counts further than an earlier one, and is the same in all else. -/
def Counts (arg default : Value) (c d : Call) : Prop :=
  ∃ name m n, arg = .str name ∧ (argumentOr c.queryArgs arg default >>= integerOf) = .ok m ∧ m < n ∧
    d = c.carrying name (.int n)

/-- Links lead from an earlier call to a later one, whatever its path is. -/
structure Linked (c d : Call) : Prop where
  method : d.method = c.method
  headers : d.headers = c.headers
  body : d.body = c.body
  arguments : ∃ args : List (String × String), d.queryArgs =
    Members.putAll c.queryArgs (args.map fun a => (a.1, .str a.2))

/-- The strategy may lead from the first call to the second one, over any number of pages. -/
def Strategy.Leads : Strategy → Call → Call → Prop
  | single => fun _ _ => False
  | token _ queryArg => fun c d =>
    ∃ name v, queryArg = .str name ∧ isNoToken v = false ∧ d = c.carrying name v
  | cursor _ _ => fun c d => Link.samePath c.path d.path = true ∧ Linked c d
  | offset offsetArg _ _ _ => Counts offsetArg (.int 0)
  | numbered pageArg _ firstPage => Counts pageArg firstPage

/-- How pages are followed: by a strategy whose parameters are data, or by links under a check of
paths that is code. The check may fail. -/
inductive Paging where
  | strategy (s : Strategy)
  | links (cursorField : Value) (allows : String → String → Except Failure Bool)

namespace Paging

def next : Paging → Continuation
  | strategy s => s.next
  | links cursorField allows => fun _ => nextByLinks cursorField allows

def Leads : Paging → Call → Call → Prop
  | strategy s => s.Leads
  | links _ _ => Linked

end Paging

theorem withArgument_leads {name v : Value}
    (h : (withArgument c name v >>= fun next => pure (some next)) = .ok (some d)) :
    ∃ s, name = .str s ∧ d = c.carrying s v := by
  obtain ⟨next, written, same⟩ := bind_eq_ok.1 h
  obtain rfl : next = d := Option.some.inj (Except.ok.inj same)
  unfold withArgument at written
  split at written
  next s =>
    split at written
    · cases written
    · exact ⟨s, rfl, (Except.ok.inj written).symm⟩
  next => cases written

theorem nextByToken_leads {tokenField queryArg : Value}
    (h : nextByToken tokenField queryArg page c = .ok (some d)) :
    ∃ name v, queryArg = .str name ∧ isNoToken v = false ∧ d = c.carrying name v := by
  obtain ⟨token, -, h⟩ := bind_eq_ok.1 h
  split at h
  · cases h
  next given =>
    obtain ⟨name, named, changed⟩ := withArgument_leads h
    exact ⟨name, token, named, by simpa using given, changed⟩

theorem nextByOffset_counts {offsetArg limitArg itemsField pageSize : Value}
    (h : nextByOffset offsetArg limitArg itemsField pageSize page c = .ok (some d)) :
    Counts offsetArg (.int 0) c d := by
  obtain ⟨items, -, h⟩ := bind_eq_ok.1 h
  obtain ⟨limitValue, -, h⟩ := bind_eq_ok.1 h
  obtain ⟨limit, -, h⟩ := bind_eq_ok.1 h
  split at h
  · cases h
  next more =>
    obtain ⟨value, found, h⟩ := bind_eq_ok.1 h
    obtain ⟨place, read, h⟩ := bind_eq_ok.1 h
    obtain ⟨name, named, changed⟩ := withArgument_leads h
    have nonempty : 0 < items.length := by
      rw [List.length_pos_iff]
      rintro rfl
      simp at more
    exact ⟨name, place, place + items.length, named, bind_eq_ok.2 ⟨value, found, read⟩, by omega,
      changed⟩

theorem nextByNumber_counts {pageArg itemsField firstPage : Value}
    (h : nextByNumber pageArg itemsField firstPage page c = .ok (some d)) :
    Counts pageArg firstPage c d := by
  obtain ⟨items, -, h⟩ := bind_eq_ok.1 h
  split at h
  · cases h
  · obtain ⟨value, found, h⟩ := bind_eq_ok.1 h
    obtain ⟨number, read, h⟩ := bind_eq_ok.1 h
    obtain ⟨name, named, changed⟩ := withArgument_leads h
    exact ⟨name, number, number + 1, named, bind_eq_ok.2 ⟨value, found, read⟩, by omega, changed⟩

theorem followLink_linked {allows : String → String → Except Failure Bool} {text : String}
    (h : (followLink allows c text).result = .ok (some d)) : Linked c d := by
  unfold followLink at h
  split at h
  next => cases h
  next link _ =>
    obtain ⟨allowed, -, h⟩ := Noted.bind_eq_ok.1 h
    cases allowed with
    | false =>
      obtain ⟨_, -, stopped⟩ := Noted.bind_eq_ok.1 h
      cases stopped
    | true =>
      obtain rfl : followed c link = d := Option.some.inj (Except.ok.inj h)
      exact ⟨rfl, rfl, rfl, Link.queryArguments link.query, rfl⟩

theorem nextByLinks_linked {cursorField : Value} {allows : String → String → Except Failure Bool}
    (h : (nextByLinks cursorField allows page c).result = .ok (some d)) : Linked c d := by
  obtain ⟨found, -, h⟩ := Noted.bind_eq_ok.1 h
  split at h
  next text =>
    split at h
    · cases h
    · exact followLink_linked h
  next => cases h

variable {history : History}

theorem Strategy.next_leads {strategy : Strategy}
    (h : (strategy.next history page c).result = .ok (some d)) : strategy.Leads c d := by
  cases strategy with
  | single => cases h
  | token tokenField queryArg => exact nextByToken_leads h
  | cursor cursorField check => exact ⟨(nextByCursor_continues h).path, nextByLinks_linked h⟩
  | offset offsetArg limitArg itemsField pageSize => exact nextByOffset_counts h
  | numbered pageArg itemsField firstPage => exact nextByNumber_counts h

theorem Paging.next_leads {paging : Paging}
    (h : (paging.next history page c).result = .ok (some d)) : paging.Leads c d := by
  cases paging with
  | strategy => exact Strategy.next_leads h
  | links => exact nextByLinks_linked h

theorem Counts.trans {arg default : Value} (first : Counts arg default c d)
    (second : Counts arg default d e) : Counts arg default c e := by
  obtain ⟨name, m, n, rfl, read, more, rfl⟩ := first
  obtain ⟨other, n', k, same, reread, further, rfl⟩ := second
  obtain rfl : name = other := Value.str.inj same
  rw [argumentOr_text, Call.get?_carrying] at reread
  obtain rfl : n = n' := Except.ok.inj reread
  exact ⟨name, m, k, rfl, read, more.trans further, Call.carrying_carrying⟩

theorem Linked.trans (first : Linked c d) (second : Linked d e) : Linked c e := by
  obtain ⟨method, headers, body, args, written⟩ := first
  obtain ⟨method', headers', body', others, rewritten⟩ := second
  refine ⟨method'.trans method, headers'.trans headers, body'.trans body, args ++ others, ?_⟩
  rw [rewritten, written, Members.putAll_append, List.map_append]

theorem Linked.argument (linked : Linked c d) (name : String) :
    Members.get? d.queryArgs name = Members.get? c.queryArgs name ∨
      ∃ s, Members.get? d.queryArgs name = some (.str s) := by
  obtain ⟨args, written⟩ := linked.arguments
  rw [written]
  refine (Members.get?_putAll_cases name).imp_right fun ⟨m, member, found⟩ => ?_
  obtain ⟨a, -, rfl⟩ := List.mem_map.1 member
  exact ⟨a.2, found⟩

theorem Linked.eq_of_same (linked : Linked c d) (distinct : (Members.keys c.queryArgs).Nodup)
    (path : c.path = d.path)
    (same : ∀ name, Members.get? d.queryArgs name = Members.get? c.queryArgs name) : d = c := by
  obtain ⟨method, headers, body, args, written⟩ := linked
  have arguments : d.queryArgs = c.queryArgs := by
    rw [written] at same ⊢
    exact Members.putAll_eq_self distinct same
  cases c
  cases d
  simp_all

theorem Linked.nodup (linked : Linked c d) (distinct : (Members.keys c.queryArgs).Nodup) :
    (Members.keys d.queryArgs).Nodup := by
  obtain ⟨args, written⟩ := linked.arguments
  exact written ▸ Members.nodup_keys_putAll distinct

theorem Strategy.Leads.trans {strategy : Strategy} (first : strategy.Leads c d)
    (second : strategy.Leads d e) : strategy.Leads c e := by
  cases strategy with
  | single => cases first
  | token tokenField queryArg =>
    obtain ⟨name, v, rfl, -, rfl⟩ := first
    obtain ⟨other, w, same, given, rfl⟩ := second
    obtain rfl : name = other := Value.str.inj same
    exact ⟨name, w, rfl, given, Call.carrying_carrying⟩
  | cursor => exact ⟨Link.samePath_trans first.1 second.1, first.2.trans second.2⟩
  | offset => exact Counts.trans first second
  | numbered => exact Counts.trans first second

theorem Paging.Leads.trans {paging : Paging} (first : paging.Leads c d)
    (second : paging.Leads d e) : paging.Leads c e := by
  cases paging with
  | strategy => exact Strategy.Leads.trans first second
  | links => exact Linked.trans first second

theorem Strategy.Leads.nodup {strategy : Strategy} (leads : strategy.Leads c d)
    (distinct : (Members.keys c.queryArgs).Nodup) : (Members.keys d.queryArgs).Nodup := by
  cases strategy with
  | single => cases leads
  | token =>
    obtain ⟨name, v, -, -, rfl⟩ := leads
    exact Members.nodup_keys_put distinct name v
  | cursor => exact leads.2.nodup distinct
  | offset | numbered =>
    obtain ⟨name, m, n, -, -, -, rfl⟩ := leads
    exact Members.nodup_keys_put distinct name _

theorem Paging.Leads.nodup {paging : Paging} (leads : paging.Leads c d)
    (distinct : (Members.keys c.queryArgs).Nodup) : (Members.keys d.queryArgs).Nodup := by
  cases paging with
  | strategy => exact Strategy.Leads.nodup leads distinct
  | links => exact Linked.nodup leads distinct

end Pagination

namespace Traversal

variable {σ : Type} {client : String} {execute : Client σ} {endpoint : Value}
  {continuation : Pagination.Continuation} {first : Value × Call} {w w' : σ}
  {exchanges : List Exchange} {events : List Event} {t : Traversal} {R : Call → Call → Prop}

/-- What holds between the calls before and behind a page holds between all calls, if it passes on.
-/
theorem Trail.pairwise (trans : ∀ {a b c}, R a b → R b c → R a c)
    (step : ∀ history page current next,
      (continuation history page current).result = .ok (some next) → R current next)
    (trail : Trail client execute endpoint continuation first w exchanges events t w') :
    t.calls.Pairwise R ∧ ∀ c ∈ t.calls, c = t.current ∨ R c t.current := by
  induction trail with
  | start => exact ⟨List.pairwise_singleton R _, fun c member => .inl (List.mem_singleton.1 member)⟩
  | @goOn _ _ t _ page _ next _ _ asked _ _ ih =>
    obtain ⟨pairwise, behind⟩ := ih
    have last := step _ _ _ _ asked
    have leads : ∀ c ∈ t.calls, R c next := by
      intro c member
      rcases behind c member with rfl | earlier
      · exact last
      · exact trans earlier last
    refine ⟨List.pairwise_append.2 ⟨pairwise, List.pairwise_singleton R next, ?_⟩, ?_⟩
    · intro c member d new
      rw [List.mem_singleton.1 new]
      exact leads c member
    · intro c member
      rcases List.mem_append.1 member with earlier | new
      · exact .inr (leads c earlier)
      · exact .inl (List.mem_singleton.1 new)

theorem callsIn_received {page : Page} {step : Step}
    (received : Received endpoint continuation t page (events, step)) : callsIn events = [] := by
  have silent : callsIn ((continuation t.history page t.current).notices.map Event.notice) = [] :=
    callsIn_notices (by simp)
  cases received <;> simp [pageEvents, silent]

theorem exists_calls (client : String) (execute : Client σ) (endpoint : Value)
    (continuation : Pagination.Continuation) (limit : Nat) (first : Value × Call) (w : σ) :
    ∃ (calls : List Call) (exchanges : List Exchange) (events : List Event) (t : Traversal)
      (w' : σ),
      callsIn (fetch client execute endpoint continuation limit first w).events =
        calls.map (client, ·) ∧
      Trail client execute endpoint continuation first w exchanges events t w' ∧
      calls <+: t.calls := by
  cases opened : opening first with
  | error f =>
    refine ⟨[], [], [], _, w, ?_, .start, List.nil_prefix⟩
    rw [fetch, opened]
    rfl
  | ok names =>
    obtain ⟨exchanges, before, t, w', last, trail, stops, shown, -⟩ :=
      run_stops (.start : Trail client execute endpoint continuation first w _ _ _ _)
        (rfl : run client execute endpoint continuation limit _ w = _)
    have exchanged := trail.exchanged
    rw [List.nil_append] at shown
    have made : callsIn (fetch client execute endpoint continuation limit first w).events =
        (exchanges.map Exchange.call).map (client, ·) ++ callsIn last.events := by
      rw [fetch_opened opened rfl, shown]
      simp [exchanged.shown.calls]
    have all : t.calls.map (client, ·) =
        (exchanges.map Exchange.call).map (client, ·) ++ [(client, t.current)] := by
      rw [exchanged.calls, List.map_append]
      rfl
    cases stops with
    | exhausted =>
      refine ⟨exchanges.map Exchange.call, exchanges, before, t, w', by simpa using made, trail, ?_⟩
      rw [exchanged.calls]
      exact List.prefix_append _ _
    | silent | failed =>
      refine ⟨t.calls, exchanges, before, t, w', ?_, trail, List.prefix_rfl⟩
      rw [made, all]
      rfl
    | finished _ received | broken _ received =>
      refine ⟨t.calls, exchanges, before, t, w', ?_, trail, List.prefix_rfl⟩
      rw [made, all, callsIn_cons, callsIn_received received]
      rfl

structure Apart (paging : Pagination.Paging) (first c d : Call) : Prop where
  begins : c = first ∨ paging.Leads first c
  leads : paging.Leads c d
  differ : c.fingerprint ≠ d.fingerprint

theorem calls_lead (client : String) (execute : Client σ) (endpoint : Value)
    (paging : Pagination.Paging) (limit : Nat) (first : Value × Call) (w : σ) :
    ∃ calls : List Call,
      callsIn (fetch client execute endpoint paging.next limit first w).events =
        calls.map (client, ·) ∧
      calls.Pairwise (Apart paging first.2) := by
  obtain ⟨calls, exchanges, events, t, w', made, trail, front⟩ :=
    exists_calls client execute endpoint paging.next limit first w
  have exchanged := trail.exchanged
  have leads : t.calls.Pairwise paging.Leads :=
    (trail.pairwise (R := paging.Leads) Pagination.Paging.Leads.trans
      fun _ _ _ _ => Pagination.Paging.next_leads).1
  have differ : t.calls.Pairwise fun c d => c.fingerprint ≠ d.fingerprint :=
    List.pairwise_map.1 exchanged.distinct
  obtain ⟨later, whole⟩ := List.head?_eq_some_iff.1 exchanged.begins
  have begins : ∀ c ∈ t.calls, c = first.2 ∨ paging.Leads first.2 c := by
    rw [whole] at leads ⊢
    exact List.forall_mem_cons.2
      ⟨.inl rfl, fun c member => .inr ((List.pairwise_cons.1 leads).1 c member)⟩
  refine ⟨calls, made, List.Pairwise.sublist front.sublist ?_⟩
  exact (leads.and differ).imp_of_mem fun here _ both => ⟨begins _ here, both.1, both.2⟩

variable {next : Call} {page : Page}

theorem opening_empty {call : Call} (written : call.isWritable = true) :
    opening (.obj [], call) = .ok [] := by
  rw [opening, if_pos written]
  rfl

theorem callsIn_run_one (t : Traversal) (w : σ) :
    callsIn (run client execute endpoint continuation 1 t w).events = [(client, t.current)] := by
  obtain ⟨reply, w', answered⟩ : ∃ reply w', execute t.current w = (reply, w') := ⟨_, _, rfl⟩
  simp only [run, answered]
  cases reply with
  | silent | failed => rfl
  | page page =>
    have silent : callsIn (t.receive endpoint continuation page).1 = [] := callsIn_receive
    dsimp only
    generalize t.receive endpoint continuation page = result at silent
    obtain ⟨shown, step⟩ := result
    cases step <;> simp_all

theorem callsIn_run_succ {limit : Nat} {t' : Traversal}
    (answered : execute t.current w = (.page page, w'))
    (goesOn : (t.receive endpoint continuation page).2 = .goOn t') :
    callsIn (run client execute endpoint continuation (limit + 1) t w).events =
      (client, t.current) ::
        callsIn (run client execute endpoint continuation limit t' w').events := by
  have silent : callsIn (t.receive endpoint continuation page).1 = [] := callsIn_receive
  simp only [run, answered]
  generalize t.receive endpoint continuation page = result at silent goesOn
  obtain ⟨shown, step⟩ := result
  dsimp only at silent goesOn
  subst goesOn
  simp [silent]

theorem callsIn_fetch_two {first : Value × Call} {names : List Value}
    (opened : opening first = .ok names) (answered : execute first.2 w = (.page page, w'))
    (asked : (continuation ⟨first.1, [first.2]⟩ page first.2).result = .ok (some next))
    (writable : next.isWritable = true) (differ : first.2.fingerprint ≠ next.fingerprint) :
    callsIn (fetch client execute endpoint continuation 2 first w).events =
      [(client, first.2), (client, next)] := by
  have unseen : (start first.1 first.2).seen next = false := by
    rw [seen_eq_false]
    simpa [start] using Ne.symm differ
  have goesOn : ((start first.1 first.2).receive endpoint continuation page).2 =
      .goOn ((start first.1 first.2).advance page next) := by
    have consulted : (continuation (start first.1 first.2).history page
        (start first.1 first.2).current).result = .ok (some next) := asked
    simp only [receive, consulted, writable, unseen, Bool.not_true, Bool.false_eq_true, if_false]
  have sent : execute (start first.1 first.2).current w = (.page page, w') := answered
  rw [fetch_opened opened rfl, callsIn_cons, callsIn_run_succ sent goesOn, callsIn_run_one]
  rfl

end Traversal

end Harvest
