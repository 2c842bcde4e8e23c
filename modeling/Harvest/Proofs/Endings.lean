import Mathlib
import Harvest.Proofs.PageLoop
import Harvest.Proofs.Sorting

namespace Harvest.Traversal

variable {σ : Type}

/-- A page that comes behind these exchanges. -/
def Arrives (client : String) (execute : Client σ) (endpoint : Value)
    (continuation : Pagination.Continuation) (first : Value × Call) (w : σ)
    (exchanges : List Exchange) (t : Traversal) (page : Page) : Prop :=
  ∃ events w' w'', Trail client execute endpoint continuation first w exchanges events t w' ∧
    execute t.current w' = (.page page, w'')

/-- How a fetch ends if its calls are answered. -/
inductive Ended (client : String) (execute : Client σ) (endpoint : Value)
    (continuation : Pagination.Continuation) (limit : Nat) (first : Value × Call) (w : σ)
    (o : Outcome σ Fetched) : Prop
  | exhausted {exchanges events t w'}
      (trail : Trail client execute endpoint continuation first w exchanges events t w')
      (all : exchanges.length = limit)
      (shown : Shows client continuation first.1 exchanges 0 o.events)
      (ending : o.ending = .exhausted)
  | last {exchanges t page}
      (arrives : Arrives client execute endpoint continuation first w exchanges t page)
      (asked : (continuation t.history page t.current).result = .ok none)
      (shown : Shows client continuation first.1 (exchanges ++ [⟨t.current, page⟩]) 0 o.events)
      (ending : o.ending = .done ⟨first.1, t.pages ++ [page]⟩)
  | repeated {exchanges t page next}
      (arrives : Arrives client execute endpoint continuation first w exchanges t page)
      (asked : (continuation t.history page t.current).result = .ok (some next))
      (seen : t.seen next = true)
      (shown : Shows client continuation first.1 (exchanges ++ [⟨t.current, page⟩]) 1 o.events)
      (ending : o.ending = .done ⟨first.1, t.pages ++ [page]⟩)
  | failed {exchanges t page f}
      (arrives : Arrives client execute endpoint continuation first w exchanges t page)
      (asked : (continuation t.history page t.current).result = .error f)
      (shown : Shows client continuation first.1 (exchanges ++ [⟨t.current, page⟩]) 0 o.events)
      (ending : o.ending = .failed f)
  | unwritable {exchanges t page next}
      (arrives : Arrives client execute endpoint continuation first w exchanges t page)
      (asked : (continuation t.history page t.current).result = .ok (some next))
      (unwritable : next.isWritable = false)
      (shown : Shows client continuation first.1 (exchanges ++ [⟨t.current, page⟩]) 0 o.events)
      (ending : o.ending = .failed .unreadable)

def Attended (client : String) (execute : Client σ) (endpoint : Value)
    (continuation : Pagination.Continuation) (first : Value × Call) (w : σ) : Prop :=
  ∀ exchanges events t w',
    Trail client execute endpoint continuation first w exchanges events t w' →
    ∃ page w'', execute t.current w' = (.page page, w'')

variable {client : String} {execute : Client σ} {endpoint : Value}
  {continuation : Pagination.Continuation} {limit : Nat} {first : Value × Call} {w : σ}

theorem opening_obj (bound : Fields) {call : Call} (written : call.isWritable = true) :
    ∃ names, opening (.obj bound, call) = .ok names := by
  obtain ⟨names, sorted, -⟩ := Value.exists_sorted?_obj bound
  refine ⟨names, ?_⟩
  rw [opening, if_pos written, contextNames, sorted]

theorem fetch_ended (limit : Nat) {names : List Value} (opened : opening first = .ok names)
    (attended : Attended client execute endpoint continuation first w) :
    Ended client execute endpoint continuation limit first w
      (fetch client execute endpoint continuation limit first w) := by
  obtain ⟨exchanges, before, t, w', last, trail, stops, left, world, ending, all⟩ :=
    run_stops (.start : Trail client execute endpoint continuation first w _ _ _ _)
      (rfl : run client execute endpoint continuation limit _ w = _)
  have exchanged := trail.exchanged
  obtain ⟨answer, w₂, answered⟩ := attended _ _ _ _ trail
  rw [List.nil_append] at left
  rw [fetch_opened opened rfl, world, ending, left]
  have silent : [Notice.traversalStarted endpoint names].countP Notice.isLoopDetected = 0 := rfl
  have framed := exchanged.shows_framed endpoint names
  cases stops with
  | exhausted =>
    have shown := exchanged.shown.around [.traversalStarted endpoint names] []
    exact .exhausted trail (by simpa using all rfl) (by simpa [silent] using shown) rfl
  | silent other =>
    rw [answered] at other
    cases other
  | failed other =>
    rw [answered] at other
    cases other
  | @finished page _ _ _ answered received =>
    cases received with
    | last asked =>
      have shown := framed page [.traversalComplete endpoint (t.pages.length + 1)]
      exact .last ⟨_, _, _, trail, answered⟩ asked shown rfl
    | repeated asked _ seen =>
      have shown := framed page
        [.loopDetected endpoint t.pages.length, .traversalComplete endpoint (t.pages.length + 1)]
      exact .repeated ⟨_, _, _, trail, answered⟩ asked seen shown rfl
  | @broken page _ _ _ answered received =>
    have shown := framed page []
    simp only [Traversal.framed, List.map_nil, List.append_nil] at shown
    cases received with
    | failed asked => exact .failed ⟨_, _, _, trail, answered⟩ asked shown rfl
    | unwritable asked unwritable =>
      exact .unwritable ⟨_, _, _, trail, answered⟩ asked unwritable shown rfl

variable {prints : Finset String}

/-- Whatever the continuation leads to from a page that comes has one of these fingerprints. -/
def LeadsWithin (client : String) (execute : Client σ) (endpoint : Value)
    (continuation : Pagination.Continuation) (first : Value × Call) (w : σ)
    (prints : Finset String) : Prop :=
  ∀ exchanges t page, Arrives client execute endpoint continuation first w exchanges t page →
    ∀ next, (continuation t.history page t.current).result = .ok (some next) →
      next.fingerprint ∈ prints

theorem Trail.among
    (within : LeadsWithin client execute endpoint continuation first w prints)
    {exchanges : List Exchange} {events : List Event} {t : Traversal} {w' : σ}
    (trail : Trail client execute endpoint continuation first w exchanges events t w') :
    ∀ call ∈ t.calls, call.fingerprint ∈ insert first.2.fingerprint prints := by
  induction trail with
  | start =>
    intro call member
    rw [List.mem_singleton.1 member]
    exact Finset.mem_insert_self _ _
  | goOn trail answered asked _ _ ih =>
    intro call member
    rcases List.mem_append.1 member with earlier | last
    · exact ih call earlier
    · rw [List.mem_singleton.1 last]
      exact Finset.mem_insert_of_mem (within _ _ _ ⟨_, _, _, trail, answered⟩ _ asked)

theorem Trail.length_lt
    (within : LeadsWithin client execute endpoint continuation first w prints)
    {exchanges : List Exchange} {events : List Event} {t : Traversal} {w' : σ}
    (trail : Trail client execute endpoint continuation first w exchanges events t w') :
    exchanges.length < (insert first.2.fingerprint prints).card := by
  have exchanged := trail.exchanged
  have length : (t.calls.map Call.fingerprint).length = exchanges.length + 1 := by
    simp [exchanged.calls]
  have among : (t.calls.map Call.fingerprint).toFinset ⊆ insert first.2.fingerprint prints := by
    intro print member
    obtain ⟨call, made, rfl⟩ := List.mem_map.1 (List.mem_toFinset.1 member)
    exact trail.among within call made
  have few := Finset.card_le_card among
  rw [List.toFinset_card_of_nodup exchanged.distinct, length] at few
  exact few

theorem Ended.within {o : Outcome σ Fetched}
    (within : LeadsWithin client execute endpoint continuation first w prints)
    (ended : Ended client execute endpoint continuation limit first w o) :
    (callsIn o.events).length ≤ (insert first.2.fingerprint prints).card ∧
      (o.ending = .exhausted → limit < (insert first.2.fingerprint prints).card) := by
  have calls {exchanges t page warnings}
      (arrives : Arrives client execute endpoint continuation first w exchanges t page)
      (shown : Shows client continuation first.1 (exchanges ++ [⟨t.current, page⟩]) warnings
        o.events) : (callsIn o.events).length ≤ (insert first.2.fingerprint prints).card := by
    obtain ⟨_, _, _, trail, -⟩ := arrives
    have few := trail.length_lt within
    rw [shown.calls]
    simpa using few
  cases ended with
  | exhausted trail all shown =>
    have few := trail.length_lt within
    refine ⟨?_, fun _ => all ▸ few⟩
    rw [shown.calls, List.length_map]
    exact few.le
  | last arrives _ shown ending =>
    exact ⟨calls arrives shown, fun other => by rw [ending] at other; cases other⟩
  | repeated arrives _ _ shown ending =>
    exact ⟨calls arrives shown, fun other => by rw [ending] at other; cases other⟩
  | failed arrives _ shown ending =>
    exact ⟨calls arrives shown, fun other => by rw [ending] at other; cases other⟩
  | unwritable arrives _ _ shown ending =>
    exact ⟨calls arrives shown, fun other => by rw [ending] at other; cases other⟩

/-- The loop guard ends every traversal whose calls are among finitely many: if the client always
answers, and the continuation never fails and leads only to calls that can be written and have one
of these fingerprints, the traversal comes to its end, with a call for each fingerprint at most. -/
theorem fetch_bounded {call : Call} (written : call.isWritable = true) (client : String)
    (answers : ∀ call w, ∃ page w', execute call w = (.page page, w')) (endpoint : Value)
    (bound : Fields) (w : σ)
    (returns : ∀ exchanges t page,
      Arrives client execute endpoint continuation (.obj bound, call) w exchanges t page →
      ∃ asked, (continuation t.history page t.current).result = .ok asked ∧
        ∀ next ∈ asked, next.isWritable = true ∧ next.fingerprint ∈ prints)
    (enough : (insert call.fingerprint prints).card ≤ limit) :
    ∃ pages, (fetch client execute endpoint continuation limit (.obj bound, call) w).ending =
        .done ⟨.obj bound, pages⟩ ∧
      (callsIn
        (fetch client execute endpoint continuation limit (.obj bound, call) w).events).length ≤
        (insert call.fingerprint prints).card := by
  have within : LeadsWithin client execute endpoint continuation (.obj bound, call) w prints := by
    intro exchanges t page arrives next leads
    obtain ⟨asked, same, each⟩ := returns _ _ _ arrives
    obtain rfl := Except.ok.inj (same.symm.trans leads)
    exact (each next rfl).2
  obtain ⟨names, opened⟩ := opening_obj bound written
  have ended : Ended client execute endpoint continuation limit (.obj bound, call) w _ :=
    fetch_ended limit opened fun _ _ t w' _ => answers t.current w'
  obtain ⟨calls, wanting⟩ := ended.within within
  cases ended with
  | exhausted _ _ _ ending => exact absurd (wanting ending) (Nat.not_lt.2 enough)
  | last _ _ _ ending => exact ⟨_, ending, calls⟩
  | repeated _ _ _ _ ending => exact ⟨_, ending, calls⟩
  | failed arrives failed =>
    obtain ⟨asked, same, -⟩ := returns _ _ _ arrives
    rw [failed] at same
    cases same
  | unwritable arrives leads unwritable =>
    obtain ⟨asked, same, each⟩ := returns _ _ _ arrives
    obtain rfl := Except.ok.inj (same.symm.trans leads)
    rw [(each _ rfl).1] at unwritable
    cases unwritable

def printsBack : Finset String :=
  {(plainCall "/b").fingerprint, (plainCall "/c").fingerprint}

theorem comingBack_within (history : History) (page : Page) (current : Call) :
    ∃ asked, (comingBack history page current).result = .ok asked ∧
      ∀ next ∈ asked, next.isWritable = true ∧ next.fingerprint ∈ printsBack := by
  refine ⟨_, rfl, fun next leads => ?_⟩
  obtain ⟨path, found, rfl⟩ := Option.map_eq_some_iff.1 leads
  have paths : path = "/b" ∨ path = "/c" := by
    have member := List.mem_of_getElem? found
    simp only [List.mem_cons, List.not_mem_nil, or_false] at member
    tauto
  rcases paths with rfl | rfl
  · exact ⟨isWritable_comingBack.1, by simp [printsBack]⟩
  · exact ⟨isWritable_comingBack.2, by simp [printsBack]⟩

theorem coming_back_bounded :
    (plainCall "/a").isWritable = true ∧
    (insert (plainCall "/a").fingerprint printsBack).card ≤ 3 ∧
    ∃ pages, (fetch "main" numbering .null comingBack 3 (.obj [], plainCall "/a") 0).ending =
        .done ⟨.obj [], pages⟩ ∧
      (callsIn
        (fetch "main" numbering .null comingBack 3 (.obj [], plainCall "/a") 0).events).length ≤
        (insert (plainCall "/a").fingerprint printsBack).card := by
  have a : (plainCall "/a").isWritable = true := by decide +kernel
  exact ⟨a, Finset.card_le_three, fetch_bounded a "main" (fun _ n => ⟨_, n + 1, rfl⟩) .null [] 0
    (fun _ _ _ _ => comingBack_within _ _ _) Finset.card_le_three⟩

end Harvest.Traversal
