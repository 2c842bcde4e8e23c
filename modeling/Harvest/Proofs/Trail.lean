import Harvest.Proofs.Traversal

namespace Harvest

structure Exchange where
  call : Call
  page : Page

namespace Traversal

variable {σ : Type} {client : String} {execute : Client σ} {endpoint : Value}
  {continuation : Pagination.Continuation}

def pageEvents (endpoint : Value) (continuation : Pagination.Continuation) (t : Traversal)
    (page : Page) : List Event :=
  .notice (.pageFetched endpoint t.pages.length page.status) ::
    .consulted t.history t.current page ::
      (continuation t.history page t.current).notices.map .notice

/-- What a traversal does with a page. -/
inductive Received (endpoint : Value) (continuation : Pagination.Continuation) (t : Traversal)
    (page : Page) : List Event × Step → Prop where
  | failed {f} (asked : (continuation t.history page t.current).result = .error f) :
    Received endpoint continuation t page (pageEvents endpoint continuation t page, .broken f)
  | unwritable {next} (asked : (continuation t.history page t.current).result = .ok (some next))
      (unwritable : next.isWritable = false) :
    Received endpoint continuation t page
      (pageEvents endpoint continuation t page, .broken .unreadable)
  | last (asked : (continuation t.history page t.current).result = .ok none) :
    Received endpoint continuation t page
      (pageEvents endpoint continuation t page ++
        [.notice (.traversalComplete endpoint (t.pages.length + 1))], .finished (t.pages ++ [page]))
  | repeated {next} (asked : (continuation t.history page t.current).result = .ok (some next))
      (writable : next.isWritable = true) (seen : t.seen next = true) :
    Received endpoint continuation t page
      (pageEvents endpoint continuation t page ++ [.notice (.loopDetected endpoint t.pages.length),
        .notice (.traversalComplete endpoint (t.pages.length + 1))], .finished (t.pages ++ [page]))
  | goOn {next} (asked : (continuation t.history page t.current).result = .ok (some next))
      (writable : next.isWritable = true) (unseen : t.seen next = false) :
    Received endpoint continuation t page
      (pageEvents endpoint continuation t page, .goOn (t.advance page next))

theorem received (t : Traversal) (page : Page) :
    Received endpoint continuation t page (t.receive endpoint continuation page) := by
  have length : (t.pages ++ [page]).length = t.pages.length + 1 := by simp
  unfold receive
  dsimp only
  rw [length]
  split
  next f asked => exact .failed asked
  next asked => exact .last asked
  next next asked =>
    split
    next unwritable => exact .unwritable asked (by simpa using unwritable)
    next writable =>
      split
      next seen => exact .repeated asked (by simpa using writable) seen
      next unseen => exact .goOn asked (by simpa using writable) (by simpa using unseen)

theorem seen_eq_false {t : Traversal} {call : Call} :
    t.seen call = false ↔ call.fingerprint ∉ t.calls.map Call.fingerprint := by
  unfold seen
  rw [Bool.eq_false_iff, ne_eq, List.any_eq_true, List.mem_map]
  simp only [beq_iff_eq]

theorem seen_eq_true {t : Traversal} {call : Call} :
    t.seen call = true ↔ call.fingerprint ∈ t.calls.map Call.fingerprint := by
  rw [← Bool.not_eq_false, seen_eq_false, not_not]

/-- The exchanges that a traversal has behind it, oldest first, with the events up to now. -/
inductive Trail (client : String) (execute : Client σ) (endpoint : Value)
    (continuation : Pagination.Continuation) (first : Value × Call) (w : σ) :
    List Exchange → List Event → Traversal → σ → Prop where
  | start : Trail client execute endpoint continuation first w [] [] (.start first.1 first.2) w
  | goOn {exchanges events t w' page w'' next}
      (trail : Trail client execute endpoint continuation first w exchanges events t w')
      (answered : execute t.current w' = (.page page, w''))
      (asked : (continuation t.history page t.current).result = .ok (some next))
      (writable : next.isWritable = true) (unseen : t.seen next = false) :
    Trail client execute endpoint continuation first w (exchanges ++ [⟨t.current, page⟩])
      (events ++ .called client t.current :: pageEvents endpoint continuation t page)
      (t.advance page next) w''

/-- How a run ends from where its trail ends. -/
inductive Stops (client : String) (execute : Client σ) (endpoint : Value)
    (continuation : Pagination.Continuation) (t : Traversal) (w : σ) :
    Outcome σ (List Page) → Prop where
  | exhausted : Stops client execute endpoint continuation t w ⟨w, [], .exhausted⟩
  | silent {w'} (answered : execute t.current w = (.silent, w')) :
    Stops client execute endpoint continuation t w ⟨w', [.called client t.current], .waiting⟩
  | failed {f w'} (answered : execute t.current w = (.failed f, w')) :
    Stops client execute endpoint continuation t w
      ⟨w', [.called client t.current, .notice (.traversalFailed endpoint t.pages.length f)],
        .failed f⟩
  | finished {page w' events pages} (answered : execute t.current w = (.page page, w'))
      (received : Received endpoint continuation t page (events, .finished pages)) :
    Stops client execute endpoint continuation t w
      ⟨w', .called client t.current :: events, .done pages⟩
  | broken {page w' events f} (answered : execute t.current w = (.page page, w'))
      (received : Received endpoint continuation t page (events, .broken f)) :
    Stops client execute endpoint continuation t w
      ⟨w', .called client t.current :: events, .failed f⟩

variable {first : Value × Call} {w : σ}

theorem run_stops {limit : Nat} {exchanges : List Exchange} {events : List Event} {t : Traversal}
    {w' : σ} (trail : Trail client execute endpoint continuation first w exchanges events t w')
    {loop : Outcome σ (List Page)}
    (h : run client execute endpoint continuation limit t w' = loop) :
    ∃ all before t' w'' last, Trail client execute endpoint continuation first w all before t' w'' ∧
      Stops client execute endpoint continuation t' w'' last ∧
      events ++ loop.events = before ++ last.events ∧ loop.world = last.world ∧
      loop.ending = last.ending ∧
      (last.ending = .exhausted → all.length = exchanges.length + limit) := by
  -- along the calls that are still allowed, the trail growing with each page that is followed
  induction limit generalizing exchanges events t w' loop with
  | zero =>
    obtain rfl := h.symm
    exact ⟨exchanges, events, t, w', _, trail, .exhausted, rfl, rfl, rfl, fun _ => rfl⟩
  | succ limit ih =>
    obtain ⟨reply, w'', answered⟩ : ∃ reply w'', execute t.current w' = (reply, w'') := ⟨_, _, rfl⟩
    simp only [run, answered] at h
    cases reply with
    | silent =>
      obtain rfl := h.symm
      exact ⟨exchanges, events, t, w', _, trail, .silent answered, rfl, rfl, rfl, by rintro ⟨⟩⟩
    | failed f =>
      obtain rfl := h.symm
      exact ⟨exchanges, events, t, w', _, trail, .failed answered, rfl, rfl, rfl, by rintro ⟨⟩⟩
    | page page =>
      have step : Received endpoint continuation t page (t.receive endpoint continuation page) :=
        received t page
      dsimp only at h
      generalize t.receive endpoint continuation page = result at h step
      obtain ⟨shown, following⟩ := result
      cases following with
      | finished pages =>
        obtain rfl := h.symm
        exact ⟨exchanges, events, t, w', _, trail, .finished answered step, rfl, rfl, rfl,
          by rintro ⟨⟩⟩
      | broken f =>
        obtain rfl := h.symm
        exact ⟨exchanges, events, t, w', _, trail, .broken answered step, rfl, rfl, rfl,
          by rintro ⟨⟩⟩
      | goOn next =>
        obtain rfl := h.symm
        cases step with
        | goOn asked writable unseen =>
          obtain ⟨all, before, t', w₂, last, whole, stops, shown, world, ending, length⟩ :=
            ih (trail.goOn answered asked writable unseen) rfl
          refine ⟨all, before, t', w₂, last, whole, stops, ?_, world, ending, ?_⟩
          · simpa using shown
          · intro exhausted
            simp [length exhausted, Nat.add_assoc, Nat.add_comm 1]

end Traversal

end Harvest
