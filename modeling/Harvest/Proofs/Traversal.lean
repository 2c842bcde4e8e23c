import Harvest.Proofs.Pagination
import Harvest.Proofs.Run
import Harvest.Traversal

namespace Harvest

def Event.call? : Event → Option (String × Call)
  | called client call => some (client, call)
  | _ => none

def callsIn (events : List Event) : List (String × Call) :=
  events.filterMap Event.call?

@[simp] theorem callsIn_nil : callsIn [] = [] := rfl

@[simp] theorem callsIn_cons (e : Event) (events : List Event) :
    callsIn (e :: events) = e.call?.toList ++ callsIn events := by
  unfold callsIn
  cases h : e.call? <;> simp [h]

@[simp] theorem callsIn_append (first second : List Event) :
    callsIn (first ++ second) = callsIn first ++ callsIn second := by
  simp [callsIn]

@[simp] theorem call?_notice (n : Notice) : (Event.notice n).call? = none := rfl

@[simp] theorem call?_called (client : String) (call : Call) :
    (Event.called client call).call? = some (client, call) := rfl

@[simp] theorem call?_consulted (history : History) (current : Call) (page : Page) :
    (Event.consulted history current page).call? = none := rfl

@[simp] theorem call?_cancelled (client : String) : (Event.cancelled client).call? = none := rfl

theorem callsIn_notices {events : List Event} (notices : ∀ e ∈ events, ∃ n, e = .notice n) :
    callsIn events = [] := by
  unfold callsIn
  rw [List.filterMap_eq_nil_iff]
  intro e member
  obtain ⟨n, rfl⟩ := notices e member
  rfl

namespace Traversal

variable {endpoint : Value} {continuation : Pagination.Continuation} {t next : Traversal}
  {page : Page} {f : Failure}

theorem callsIn_receive : callsIn (t.receive endpoint continuation page).1 = [] := by
  have notices : ∀ asked : List Notice, callsIn (asked.map .notice) = [] := by
    intro asked
    refine callsIn_notices fun e member => ?_
    obtain ⟨n, -, rfl⟩ := List.mem_map.1 member
    exact ⟨n, rfl⟩
  unfold receive
  dsimp only
  split
  · simp [notices]
  · simp [notices]
  · split
    · simp [notices]
    · split <;> simp [notices]

theorem receive_goOn (h : (t.receive endpoint continuation page).2 = .goOn next) :
    ∃ call, (continuation t.history page t.current).result = .ok (some call) ∧
      call.isWritable = true ∧ t.seen call = false ∧ next = t.advance page call := by
  unfold receive at h
  dsimp only at h
  split at h
  · cases h
  · cases h
  next call asked =>
    split at h
    · cases h
    next writable =>
      split at h
      · cases h
      next unseen =>
        cases h
        exact ⟨call, asked, by simpa using writable, by simpa using unseen, rfl⟩

theorem receive_broken (h : (t.receive endpoint continuation page).2 = .broken f) :
    (continuation t.history page t.current).result = .error f ∨
      f = .unreadable ∧ ∃ call, (continuation t.history page t.current).result = .ok (some call) ∧
        call.isWritable = false := by
  unfold receive at h
  dsimp only at h
  split at h
  next asked =>
    cases h
    exact .inl asked
  · cases h
  next call asked =>
    split at h
    next unwritable =>
      cases h
      exact .inr ⟨rfl, call, asked, by simpa using unwritable⟩
    · split at h <;> cases h

theorem fetch_opened {σ : Type} {client : String} {execute : Client σ} {limit : Nat}
    {first : Value × Call} {names : List Value} (opened : opening first = .ok names) {w : σ}
    {loop : Outcome σ (List Page)}
    (h : run client execute endpoint continuation limit (start first.1 first.2) w = loop) :
    fetch client execute endpoint continuation limit first w =
      ⟨loop.world, .notice (.traversalStarted endpoint names) :: loop.events,
        loop.ending.map (Fetched.mk first.1)⟩ := by
  unfold fetch
  rw [opened, Run.bind_of_done (a := names) _ rfl, Run.bind_of_done (a := ()) _ rfl]
  have pages : (run client execute endpoint continuation limit (start first.1 first.2) >>=
      fun pages => pure (Fetched.mk first.1 pages)) w = _ := Run.bind_done _ (Fetched.mk first.1) w
  rw [h] at pages
  simp only [Run.ofExcept, Run.done, Run.emit, pages, List.nil_append, List.singleton_append]

theorem fetch_of_fault {σ : Type} {client : String} {execute : Client σ} {limit : Nat}
    {first : Value × Call} (fault : opening first = .error f) (w : σ) :
    fetch client execute endpoint continuation limit first w = ⟨w, [], .failed f⟩ := by
  rw [fetch, fault]
  exact Run.bind_of_failed _ rfl

theorem ending_of_unopened {σ : Type} {client : String} {execute : Client σ} {limit : Nat}
    {first : Value × Call} (fault : opening first = .error f) (w : σ) :
    (fetch client execute endpoint continuation limit first w).ending = .failed f := by
  rw [fetch_of_fault fault]

section

variable {σ : Type} {client : String} {execute : Client σ} {limit : Nat} {call : Call}
  {contexts : Value}

theorem fetchAll_filled {firsts : List (Value × Call)}
    (filled : (contexts.iterated >>= firstCalls call) = .ok firsts) (w : σ) :
    fetchAll client execute endpoint continuation limit call contexts w =
      Batch.run client (firsts.map (fetch client execute endpoint continuation limit)) w := by
  unfold fetchAll
  rw [filled]
  exact Run.bind_of_done _ rfl

theorem fetchAll_faulty (fault : (contexts.iterated >>= firstCalls call) = .error f) (w : σ) :
    fetchAll client execute endpoint continuation limit call contexts w = ⟨w, [], .failed f⟩ := by
  unfold fetchAll
  rw [fault]
  exact Run.bind_of_failed _ rfl

end

structure From (first : Value × Call) (t : Traversal) : Prop where
  context : t.context = first.1
  calls : ∃ later, t.calls = first.2 :: later ∧ ∀ c ∈ later, first.2.Continues c
  current : first.2.Continues t.current

theorem From.start (first : Value × Call) : From first (start first.1 first.2) where
  context := rfl
  calls := ⟨[], rfl, by simp⟩
  current := .refl first.2

/-- The continuation leads only to calls that continue the current one. -/
def Keeps (continuation : Pagination.Continuation) : Prop :=
  ∀ history page current next, (continuation history page current).result = .ok (some next) →
    current.Continues next

theorem From.receive {first : Value × Call} (keeps : Keeps continuation) (origin : From first t)
    (h : (t.receive endpoint continuation page).2 = .goOn next) :
    From first next ∧ next.calls = t.calls ++ [next.current] := by
  obtain ⟨call, asked, -, -, rfl⟩ := receive_goOn h
  have continues := origin.current.trans (keeps _ _ _ _ asked)
  obtain ⟨later, calls, all⟩ := origin.calls
  refine ⟨⟨origin.context, ⟨later ++ [call], by simp [advance, calls], ?_⟩, continues⟩, rfl⟩
  intro c member
  rcases List.mem_append.1 member with old | new
  · exact all c old
  · obtain rfl := List.mem_singleton.1 new
    exact continues

end Traversal

end Harvest
