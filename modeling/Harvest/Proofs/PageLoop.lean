import Mathlib
import Harvest.Proofs.Trail

namespace Harvest

def Notice.isLoopDetected : Notice → Bool
  | loopDetected _ _ => true
  | _ => false

def Event.isLoopDetected : Event → Bool
  | notice n => n.isLoopDetected
  | _ => false

def Event.consulted? : Event → Option (History × Exchange)
  | consulted history current page => some (history, ⟨current, page⟩)
  | _ => none

namespace Traversal

variable {σ : Type} {client : String} {execute : Client σ} {endpoint : Value}
  {continuation : Pagination.Continuation} {first : Value × Call} {w w' : σ}
  {exchanges : List Exchange} {events : List Event} {t : Traversal}

def Answered (execute : Client σ) : List Exchange → σ → σ → Prop
  | [], w, w' => w' = w
  | x :: rest, w, w' => ∃ mid, execute x.call w = (.page x.page, mid) ∧ Answered execute rest mid w'

theorem Answered.snoc {x : Exchange} {w'' : σ} (before : Answered execute exchanges w w')
    (last : execute x.call w' = (.page x.page, w'')) :
    Answered execute (exchanges ++ [x]) w w'' := by
  induction exchanges generalizing w with
  | nil =>
    obtain rfl : w' = w := before
    exact ⟨w'', last, rfl⟩
  | cons y rest ih =>
    obtain ⟨mid, here, later⟩ := before
    exact ⟨mid, here, ih later⟩

def historyAt (context : Value) (exchanges : List Exchange) (i : Nat) : History :=
  ⟨context, (exchanges.take (i + 1)).map Exchange.call⟩

def consultations (context : Value) (exchanges : List Exchange) : List (History × Exchange) :=
  exchanges.mapIdx fun i x => (historyAt context exchanges i, x)

theorem pagesFetched_historyAt (context : Value) {i : Nat} {x : Exchange}
    (found : exchanges[i]? = some x) : (historyAt context exchanges i).pagesFetched = i + 1 := by
  have inside : i < exchanges.length := (List.getElem?_eq_some_iff.1 found).1
  simp only [historyAt, History.pagesFetched, List.length_map, List.length_take]
  omega

theorem historyAt_append (context : Value) (others : List Exchange) {i : Nat}
    (inside : i < exchanges.length) :
    historyAt context (exchanges ++ others) i = historyAt context exchanges i := by
  unfold historyAt
  rw [List.take_append_of_le_length inside]

theorem historyAt_last (context : Value) (exchanges : List Exchange) (x : Exchange) :
    historyAt context (exchanges ++ [x]) exchanges.length =
      ⟨context, exchanges.map Exchange.call ++ [x.call]⟩ := by
  simp [historyAt]

theorem consultations_snoc (context : Value) (exchanges : List Exchange) (x : Exchange) :
    consultations context (exchanges ++ [x]) = consultations context exchanges ++
      [(⟨context, exchanges.map Exchange.call ++ [x.call]⟩, x)] := by
  have before : exchanges.mapIdx (fun i y => (historyAt context (exchanges ++ [x]) i, y)) =
      consultations context exchanges := by
    refine List.mapIdx_eq_mapIdx_iff.2 fun i inside => ?_
    rw [historyAt_append context [x] inside]
  unfold consultations
  rw [List.mapIdx_append, before, List.mapIdx_singleton, Nat.zero_add, historyAt_last]
  rfl

def ownNotices (continuation : Pagination.Continuation) (asked : List (History × Exchange)) :
    List Notice :=
  asked.flatMap fun a => (continuation a.1 a.2.page a.2.call).notices

theorem ownNotices_of_quiet
    (quiet : ∀ history page call, (continuation history page call).notices = [])
    (asked : List (History × Exchange)) : ownNotices continuation asked = [] := by
  rw [ownNotices, List.flatMap_eq_nil_iff]
  exact fun a _ => quiet a.1 a.2.page a.2.call

/-- The events show the exchanges and what the continuation was asked about them, with some warnings
of a loop beside those that the continuation gives itself. -/
structure Shows (client : String) (continuation : Pagination.Continuation) (context : Value)
    (exchanges : List Exchange) (warnings : Nat) (events : List Event) : Prop where
  calls : callsIn events = exchanges.map fun x => (client, x.call)
  consulted : events.filterMap Event.consulted? = consultations context exchanges
  loops : events.countP Event.isLoopDetected =
    (ownNotices continuation (consultations context exchanges)).countP Notice.isLoopDetected +
      warnings

theorem consulted?_notices (notices : List Notice) :
    (notices.map Event.notice).filterMap Event.consulted? = [] := by
  rw [List.filterMap_map, List.filterMap_eq_nil_iff]
  exact fun n _ => rfl

theorem loops_notices (notices : List Notice) :
    (notices.map Event.notice).countP Event.isLoopDetected =
      notices.countP Notice.isLoopDetected := by
  rw [List.countP_map]
  rfl

theorem shows_snoc {warnings : Nat} (endpoint : Value)
    (before : Shows client continuation t.context exchanges warnings events)
    (calls : t.calls = exchanges.map Exchange.call ++ [t.current]) (page : Page) :
    Shows client continuation t.context (exchanges ++ [⟨t.current, page⟩]) warnings
      (events ++ .called client t.current :: pageEvents endpoint continuation t page) := by
  have history : t.history = ⟨t.context, exchanges.map Exchange.call ++ [t.current]⟩ := by
    rw [Traversal.history, calls]
  have silent : callsIn ((continuation t.history page t.current).notices.map Event.notice) = [] :=
    callsIn_notices (by simp)
  refine ⟨?_, ?_, ?_⟩
  · simp [pageEvents, silent, before.calls]
  · rw [consultations_snoc, ← history, List.filterMap_append, before.consulted]
    simp only [pageEvents, List.filterMap_cons, Event.consulted?, consulted?_notices]
  · rw [consultations_snoc, ← history, List.countP_append, before.loops]
    simp only [pageEvents, List.countP_cons, Event.isLoopDetected, Notice.isLoopDetected,
      loops_notices, ownNotices, List.flatMap_append, List.flatMap_singleton, List.countP_append]
    simp [Nat.add_right_comm]

theorem Shows.around {warnings : Nat}
    (shown : Shows client continuation first.1 exchanges warnings events)
    (before after : List Notice) :
    Shows client continuation first.1 exchanges
      (before.countP Notice.isLoopDetected + warnings + after.countP Notice.isLoopDetected)
      (before.map .notice ++ events ++ after.map .notice) where
  calls := by
    have silent : ∀ notices : List Notice, callsIn (notices.map .notice) = [] :=
      fun _ => callsIn_notices (by simp)
    simp [silent, shown.calls]
  consulted := by simp only [List.filterMap_append, consulted?_notices, shown.consulted,
    List.nil_append, List.append_nil]
  loops := by
    rw [List.countP_append, List.countP_append, loops_notices, loops_notices, shown.loops]
    omega

/-- Each call but the first is what the continuation made of the exchange before it. -/
def Follows (continuation : Pagination.Continuation) (context : Value) (exchanges : List Exchange)
    (calls : List Call) : Prop :=
  ∀ i x next, exchanges[i]? = some x → calls[i + 1]? = some next →
    (continuation (historyAt context exchanges i) x.page x.call).result = .ok (some next)

theorem Follows.snoc {calls : List Call} {x : Exchange} {next : Call}
    (before : Follows continuation first.1 exchanges calls)
    (same : calls = exchanges.map Exchange.call ++ [x.call])
    (asked : (continuation ⟨first.1, calls⟩ x.page x.call).result = .ok (some next)) :
    Follows continuation first.1 (exchanges ++ [x]) (calls ++ [next]) := by
  have length : calls.length = exchanges.length + 1 := by simp [same]
  intro i y after found follower
  rcases Nat.lt_trichotomy i exchanges.length with early | rfl | late
  · rw [List.getElem?_append_left early] at found
    rw [List.getElem?_append_left (by omega)] at follower
    rw [historyAt_append first.1 [x] early]
    exact before i y after found follower
  · rw [List.getElem?_concat_length] at found
    rw [← length, List.getElem?_concat_length] at follower
    cases found
    cases follower
    rwa [historyAt_last, ← same]
  · rw [List.getElem?_eq_none (by simpa using late)] at found
    cases found

structure Exchanged (client : String) (execute : Client σ) (continuation : Pagination.Continuation)
    (first : Value × Call) (w : σ) (exchanges : List Exchange) (events : List Event) (t : Traversal)
    (w' : σ) : Prop where
  context : t.context = first.1
  begins : t.calls.head? = some first.2
  calls : t.calls = exchanges.map Exchange.call ++ [t.current]
  pages : t.pages = exchanges.map Exchange.page
  distinct : (t.calls.map Call.fingerprint).Nodup
  follows : Follows continuation first.1 exchanges t.calls
  answered : Answered execute exchanges w w'
  shown : Shows client continuation first.1 exchanges 0 events

theorem Exchanged.start : Exchanged client execute continuation first w [] []
    (.start first.1 first.2) w where
  context := rfl
  begins := rfl
  calls := rfl
  pages := rfl
  distinct := List.nodup_singleton _
  follows i x next found := by simp at found
  answered := rfl
  shown := ⟨rfl, rfl, rfl⟩

theorem Exchanged.goOn {page : Page} {w'' : σ} {next : Call}
    (before : Exchanged client execute continuation first w exchanges events t w')
    (answered : execute t.current w' = (.page page, w''))
    (asked : (continuation t.history page t.current).result = .ok (some next))
    (unseen : t.seen next = false) :
    Exchanged client execute continuation first w (exchanges ++ [⟨t.current, page⟩])
      (events ++ .called client t.current :: pageEvents endpoint continuation t page)
      (t.advance page next) w'' where
  context := before.context
  begins := by simp [advance, before.begins]
  calls := by simp [advance, before.calls]
  pages := by simp [advance, before.pages]
  distinct := by
    have fresh := seen_eq_false.1 unseen
    simpa [advance, List.nodup_append] using ⟨before.distinct, by simpa using fresh⟩
  follows := by
    rw [history, before.context] at asked
    exact before.follows.snoc before.calls asked
  answered := before.answered.snoc answered
  shown := before.context ▸ shows_snoc _ (before.context ▸ before.shown) before.calls page

theorem Trail.exchanged
    (trail : Trail client execute endpoint continuation first w exchanges events t w') :
    Exchanged client execute continuation first w exchanges events t w' := by
  induction trail with
  | start => exact .start
  | goOn _ answered asked _ unseen ih => exact ih.goOn answered asked unseen

def framed (client : String) (endpoint : Value) (continuation : Pagination.Continuation)
    (names : List Value) (before : List Event) (t : Traversal) (page : Page)
    (closing : List Notice) : List Event :=
  .notice (.traversalStarted endpoint names) :: (before ++ .called client t.current ::
    (pageEvents endpoint continuation t page ++ closing.map .notice))

theorem Exchanged.shows_framed
    (exchanged : Exchanged client execute continuation first w exchanges events t w')
    (endpoint : Value) (names : List Value) (page : Page) (closing : List Notice) :
    Shows client continuation first.1 (exchanges ++ [⟨t.current, page⟩])
      (closing.countP Notice.isLoopDetected)
      (framed client endpoint continuation names events t page closing) := by
  have silent : [Notice.traversalStarted endpoint names].countP Notice.isLoopDetected = 0 := rfl
  have pages := shows_snoc endpoint (exchanged.context ▸ exchanged.shown) exchanged.calls page
  rw [exchanged.context] at pages
  have whole := pages.around [.traversalStarted endpoint names] closing
  simpa [framed, silent] using whole

/-- The law of a traversal that came to its end after some exchanges, with some warnings of a loop.
-/
structure LoopLaw (client : String) (execute : Client σ) (continuation : Pagination.Continuation)
    (first : Value × Call) (w : σ) (exchanges : List Exchange) (warnings : Nat)
    (o : Outcome σ Fetched) : Prop where
  begins : exchanges.head?.map Exchange.call = some first.2
  answered : Answered execute exchanges w o.world
  shown : Shows client continuation first.1 exchanges warnings o.events
  returned : o.ending = .done ⟨first.1, exchanges.map Exchange.page⟩
  distinct : (exchanges.map fun x => x.call.fingerprint).Nodup
  follows : ∀ i x next, exchanges[i]? = some x → exchanges[i + 1]? = some next →
    ∃ h : History, h.context = first.1 ∧ h.pagesFetched = i + 1 ∧
      h.calls = (exchanges.take (i + 1)).map Exchange.call ∧
      (continuation h x.page x.call).result = .ok (some next.call)
  stops : ∃ x, ∃ h : History, exchanges.getLast? = some x ∧ h.context = first.1 ∧
    h.pagesFetched = exchanges.length ∧ h.calls = exchanges.map Exchange.call ∧
    (((continuation h x.page x.call).result = .ok none ∧ warnings = 0) ∨
      ∃ again, (continuation h x.page x.call).result = .ok (some again) ∧
        again.fingerprint ∈ exchanges.map (fun x => x.call.fingerprint) ∧ warnings = 1)

theorem Exchanged.law {x : Exchange} {w'' : σ} {warnings : Nat} {shown : List Event}
    (exchanged : Exchanged client execute continuation first w exchanges events t w')
    (out : t.current = x.call) (answered : execute x.call w' = (.page x.page, w''))
    (shows' : Shows client continuation first.1 (exchanges ++ [x]) warnings shown)
    (stops : ((continuation t.history x.page x.call).result = .ok none ∧ warnings = 0) ∨
      ∃ again, (continuation t.history x.page x.call).result = .ok (some again) ∧
        t.seen again = true ∧ warnings = 1) :
    LoopLaw client execute continuation first w (exchanges ++ [x]) warnings
      ⟨w'', shown, .done ⟨first.1, t.pages ++ [x.page]⟩⟩ := by
  have calls : t.calls = (exchanges ++ [x]).map Exchange.call := by
    simp [exchanged.calls, out]
  have prints : t.calls.map Call.fingerprint =
      (exchanges ++ [x]).map fun x => x.call.fingerprint := by
    rw [calls, List.map_map]
    rfl
  refine ⟨?_, exchanged.answered.snoc answered, shows', ?_, prints ▸ exchanged.distinct, ?_, ?_⟩
  · rw [← List.head?_map, ← calls]
    exact exchanged.begins
  · simp [exchanged.pages]
  · intro i y next found follower
    have early : i < exchanges.length := by
      simpa using (List.getElem?_eq_some_iff.1 follower).1
    refine ⟨historyAt first.1 (exchanges ++ [x]) i, rfl, pagesFetched_historyAt first.1 found, rfl,
      ?_⟩
    rw [historyAt_append first.1 _ early]
    refine exchanged.follows i y next.call ?_ ?_
    · rwa [List.getElem?_append_left early] at found
    · rw [calls, List.getElem?_map, follower]
      rfl
  · refine ⟨x, t.history, by simp, exchanged.context, ?_, calls, ?_⟩
    · rw [History.pagesFetched, history, calls, List.length_map]
    · rcases stops with last | ⟨again, asked, seen, warned⟩
      · exact .inl last
      · exact .inr ⟨again, asked, prints ▸ seen_eq_true.1 seen, warned⟩

/-- A traversal that comes to its end has followed its continuation: it returns the pages of calls
that all differ, each of them being what the continuation made of the page before, and it stops
where there is no next call or an earlier one comes again. -/
theorem fetch_follows_continuation (client : String) (execute : Client σ) (endpoint : Value)
    (continuation : Pagination.Continuation) (limit : Nat) (first : Value × Call) (w : σ)
    (fetched : Fetched)
    (ended : (fetch client execute endpoint continuation limit first w).ending = .done fetched) :
    ∃ exchanges warnings, LoopLaw client execute continuation first w exchanges warnings
      (fetch client execute endpoint continuation limit first w) := by
  cases opened : opening first with
  | error f =>
    rw [ending_of_unopened opened] at ended
    cases ended
  | ok names =>
    rw [fetch_opened opened rfl] at ended ⊢
    obtain ⟨exchanges, before, t, w', last, trail, stops, shown, world, ending, -⟩ :=
      run_stops (.start : Trail client execute endpoint continuation first w _ _ _ _) rfl
    have exchanged := trail.exchanged
    dsimp only at ended
    rw [ending] at ended ⊢
    rw [world, ← List.nil_append (run _ _ _ _ _ _ _).events, shown]
    cases stops with
    | exhausted => cases ended
    | silent => cases ended
    | failed => cases ended
    | broken => cases ended
    | @finished page w'' _ _ answered received =>
      have pages := shows_snoc endpoint (exchanged.context ▸ exchanged.shown) exchanged.calls page
      rw [exchanged.context] at pages
      have whole := fun closing => pages.around [.traversalStarted endpoint names] closing
      cases received with
      | last asked =>
        refine ⟨_, _, exchanged.law (x := ⟨t.current, page⟩) rfl answered ?_ (.inl ⟨asked, rfl⟩)⟩
        simpa [List.countP_cons, Notice.isLoopDetected] using
          whole [.traversalComplete endpoint (t.pages.length + 1)]
      | repeated asked writable seen =>
        refine ⟨_, _, exchanged.law (x := ⟨t.current, page⟩) rfl answered ?_
          (.inr ⟨_, asked, seen, rfl⟩)⟩
        simpa [List.countP_cons, Notice.isLoopDetected] using
          whole [.loopDetected endpoint t.pages.length,
            .traversalComplete endpoint (t.pages.length + 1)]

def numbering : Client Nat :=
  fun _ n => (.page ⟨.int n, 200, []⟩, n + 1)

def plainCall (path : String) : Call :=
  ⟨path, .get, [], [], .null⟩

def comingBack : Pagination.Continuation :=
  fun history _ _ => pure (["/b", "/c", "/b"][history.pagesFetched - 1]?.map plainCall)

theorem opening_plainCall : opening (.obj [], plainCall "/a") = .ok [] := by cbv

theorem isWritable_comingBack :
    (plainCall "/b").isWritable = true ∧ (plainCall "/c").isWritable = true := by
  decide +kernel

theorem comingBack_differ : ((plainCall "/a").fingerprint == (plainCall "/b").fingerprint) = false ∧
    ((plainCall "/a").fingerprint == (plainCall "/c").fingerprint) = false ∧
    ((plainCall "/b").fingerprint == (plainCall "/c").fingerprint) = false := by
  decide +kernel

theorem coming_back_ends :
    (fetch "main" numbering .null comingBack 9 (.obj [], plainCall "/a") 0).ending =
      .done ⟨.obj [], [⟨.int 0, 200, []⟩, ⟨.int 1, 200, []⟩, ⟨.int 2, 200, []⟩]⟩ := by
  rw [fetch_opened opening_plainCall rfl]
  simp [run, receive, numbering, comingBack, start, history, advance, seen, History.pagesFetched,
    isWritable_comingBack, comingBack_differ, Ending.map]

theorem coming_back_stops :
    (fetch "main" numbering .null comingBack 9 (.obj [], plainCall "/a") 0).ending =
      .done ⟨.obj [], [⟨.int 0, 200, []⟩, ⟨.int 1, 200, []⟩, ⟨.int 2, 200, []⟩]⟩ ∧
    ∃ exchanges warnings, LoopLaw "main" numbering comingBack (.obj [], plainCall "/a") 0 exchanges
      warnings (fetch "main" numbering .null comingBack 9 (.obj [], plainCall "/a") 0) :=
  ⟨coming_back_ends, fetch_follows_continuation _ _ _ _ _ _ _ _ coming_back_ends⟩

end Traversal

end Harvest
