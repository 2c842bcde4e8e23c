import Harvest.Proofs.Batch
import Harvest.Proofs.Extraction
import Harvest.Proofs.Substitution
import Harvest.Proofs.Traversal

namespace Harvest

namespace Run

variable {σ α : Type}

/-- With enough calls allowed, the run comes to this ending, whatever the world. -/
def Settles (r : Nat → Run σ α) (ending : Ending α) : Prop :=
  ∃ n, ∀ limit, n ≤ limit → ∀ w, (r limit w).ending = ending

def Fails (r : Nat → Run σ α) : Prop :=
  ∃ limit, ∀ w, ∃ f, (r limit w).ending = .failed f

def NeverFails (r : Nat → Run σ α) (w : σ) : Prop :=
  ∀ limit f, (r limit w).ending ≠ .failed f

theorem Fails.not_neverFails {r : Nat → Run σ α} (fails : Fails r) (w : σ) : ¬ NeverFails r w := by
  obtain ⟨limit, failed⟩ := fails
  obtain ⟨f, ending⟩ := failed w
  exact fun never => never limit f ending

theorem Settles.fails {r : Nat → Run σ α} {f : Failure} (settles : Settles r (.failed f)) :
    Fails r := by
  obtain ⟨n, ending⟩ := settles
  exact ⟨n, fun w => ⟨f, ending n (Nat.le_refl n) w⟩⟩

section

variable {β : Type} {r : Nat → Run σ α}

theorem Settles.bind {next : α → Run σ β} {a : α} {ending : Ending β} (first : Settles r (.done a))
    (rest : ∀ w, (next a w).ending = ending) : Settles (fun limit => r limit >>= next) ending := by
  obtain ⟨n, done⟩ := first
  refine ⟨n, fun limit enough w => ?_⟩
  rw [ending_bind_of_done next (done limit enough w)]
  exact rest _

theorem Fails.bind (first : Fails r) (next : α → Run σ β) :
    Fails (fun limit => r limit >>= next) := by
  obtain ⟨limit, failed⟩ := first
  refine ⟨limit, fun w => ?_⟩
  obtain ⟨f, ending⟩ := failed w
  exact ⟨f, ending_bind_of_failed next ending⟩

end

theorem settles_all {β : Type} {r : β → Nat → Run σ α} {items : List β} {results : List α}
    (each : List.Forall₂ (fun b a => Settles (r b) (.done a)) items results) :
    ∃ n, ∀ limit, n ≤ limit →
      List.Forall₂ (fun b a => ∀ w, (r b limit w).ending = .done a) items results := by
  induction each with
  | nil => exact ⟨0, fun _ _ => .nil⟩
  | cons first _ ih =>
    obtain ⟨n, head⟩ := first
    obtain ⟨m, tail⟩ := ih
    refine ⟨max n m, fun limit enough => .cons (head limit ?_) (tail limit ?_)⟩ <;> omega

end Run

def serving {σ : Type} (serve : String → Call → Page) (client : String) : Traversal.Client σ :=
  fun call w => (.page (serve client call), w)

namespace Traversal

variable {σ : Type} {client : String} {execute : Client σ} {endpoint : Value}
  {continuation : Pagination.Continuation} {limit : Nat} {first : Value × Call} {w : σ}

theorem ending_run (serve : String → Call → Page) (t : Traversal) :
    (run client (serving serve client) endpoint continuation (limit + 1) t w).ending =
      match (t.receive endpoint continuation (serve client t.current)).2 with
      | .finished pages => .done pages
      | .broken f => .failed f
      | .goOn next =>
        (run client (serving serve client) endpoint continuation limit next w).ending := by
  simp only [run, serving]
  split <;> simp_all

def Leads (σ : Type) (serve : String → Call → Page) (client : String) (endpoint : Value)
    (continuation : Pagination.Continuation) (t t' : Traversal) (k : Nat) : Prop :=
  ∀ limit (w : σ),
    (run client (serving serve client) endpoint continuation (limit + k) t w).ending =
      (run client (serving serve client) endpoint continuation limit t' w).ending

namespace Leads

variable {serve : String → Call → Page} {t t' : Traversal} {k : Nat}

theorem refl (t : Traversal) : Leads σ serve client endpoint continuation t t 0 :=
  fun _ _ => rfl

theorem ending (leads : Leads σ serve client endpoint continuation t t' k) (limit : Nat) (w : σ) :
    (run client (serving serve client) endpoint continuation (limit + (k + 1)) t w).ending =
      match (t'.receive endpoint continuation (serve client t'.current)).2 with
      | .finished pages => .done pages
      | .broken f => .failed f
      | .goOn next =>
        (run client (serving serve client) endpoint continuation limit next w).ending := by
  rw [Nat.add_comm k, ← Nat.add_assoc, leads]
  exact ending_run serve t'

theorem goOn (leads : Leads σ serve client endpoint continuation t t' k) {next : Traversal}
    (h : (t'.receive endpoint continuation (serve client t'.current)).2 = .goOn next) :
    Leads σ serve client endpoint continuation t next (k + 1) := by
  intro limit w
  rw [leads.ending, h]

theorem finished (leads : Leads σ serve client endpoint continuation t t' k) {pages : List Page}
    (h : (t'.receive endpoint continuation (serve client t'.current)).2 = .finished pages) :
    Run.Settles (σ := σ) (run client (serving serve client) endpoint continuation · t)
      (.done pages) := by
  refine ⟨k + 1, fun limit enough w => ?_⟩
  obtain ⟨more, rfl⟩ := Nat.exists_eq_add_of_le' enough
  rw [leads.ending, h]

theorem broken (leads : Leads σ serve client endpoint continuation t t' k) {f : Failure}
    (h : (t'.receive endpoint continuation (serve client t'.current)).2 = .broken f) :
    Run.Settles (σ := σ) (run client (serving serve client) endpoint continuation · t)
      (.failed f) := by
  refine ⟨k + 1, fun limit enough w => ?_⟩
  obtain ⟨more, rfl⟩ := Nat.exists_eq_add_of_le' enough
  rw [leads.ending, h]

end Leads

theorem fetch_unopened {f : Failure} (fault : opening first = .error f) :
    Run.Settles (fetch client execute endpoint continuation · first) (.failed f) :=
  ⟨0, fun _ _ => ending_of_unopened fault⟩

theorem fetch_settles {names : List Value} (opened : opening first = .ok names)
    {ending : Ending (List Page)} (settles : Run.Settles
      (run client execute endpoint continuation · (start first.1 first.2)) ending) :
    Run.Settles (fetch client execute endpoint continuation · first)
      (ending.map (Fetched.mk first.1)) := by
  obtain ⟨n, settled⟩ := settles
  refine ⟨n, fun limit enough w => ?_⟩
  rw [← settled limit enough w]
  exact congrArg Outcome.ending (fetch_opened opened rfl)

section

variable {call : Call} {contexts : Value} {firsts : List (Value × Call)}

theorem fetchAll_settles (filled : (contexts.iterated >>= firstCalls call) = .ok firsts)
    {results : List Fetched} (each : List.Forall₂ (fun first fetched =>
      Run.Settles (fetch client execute endpoint continuation · first) (.done fetched))
      firsts results) :
    Run.Settles (fetchAll client execute endpoint continuation · call contexts) (.done results) := by
  obtain ⟨n, together⟩ := Run.settles_all each
  refine ⟨n, fun limit enough w => ?_⟩
  beta_reduce
  rw [fetchAll_filled filled]
  exact Batch.run_done (List.forall₂_map_left_iff.2 (together limit enough)) w

theorem fetchAll_fails (filled : (contexts.iterated >>= firstCalls call) = .ok firsts)
    (member : first ∈ firsts) {f : Failure}
    (settles : Run.Settles (fetch client execute endpoint continuation · first) (.failed f)) :
    Run.Fails (fetchAll client execute endpoint continuation · call contexts) := by
  obtain ⟨n, failed⟩ := settles
  refine ⟨n, fun w => ?_⟩
  beta_reduce
  rw [fetchAll_filled filled]
  exact Batch.run_failed (List.mem_map_of_mem member) (failed n (Nat.le_refl n)) w

theorem fetchAll_unfilled {f : Failure} (fault : (contexts.iterated >>= firstCalls call) = .error f) :
    Run.Fails (fetchAll client execute endpoint continuation · call contexts) := by
  exact ⟨0, fun w => ⟨f, congrArg Outcome.ending (fetchAll_faulty fault w)⟩⟩

end

theorem filled_alone {call : Call} {context : Value} (same : first.1 = context)
    (filled : call.substitute context = .ok first.2) :
    ((Value.arr [context]).iterated >>= firstCalls call) = .ok [first] :=
  firstCalls_eq_ok.2 (.cons ⟨same, filled⟩ .nil)

def contextAlone (serve : String → Call → Page) (client : String) (endpoint : Value)
    (continuation : Pagination.Continuation) (call : Call) (context : Value) (limit : Nat) :
    Run σ (List Fetched) :=
  fetchAll client (serving serve client) endpoint continuation limit call (.arr [context])

section

variable (calm : ∀ history page current f, (continuation history page current).result ≠ .error f)
  (writes : ∀ history page current next,
    (continuation history page current).result = .ok (some next) → next.isWritable = true)

include calm writes

theorem run_neverFails (serve : String → Call → Page) (t : Traversal) (w : σ) :
    Run.NeverFails (run client (serving serve client) endpoint continuation · t) w := by
  intro limit f
  induction limit generalizing t with
  | zero => simp [run]
  | succ limit ih =>
    rw [ending_run]
    cases step : (t.receive endpoint continuation (serve client t.current)).2 with
    | finished pages => simp
    | goOn next => exact ih next
    | broken f' =>
      exfalso
      rcases receive_broken step with raised | ⟨-, next, asked, unwritable⟩
      · exact calm _ _ _ _ raised
      · simp [writes _ _ _ _ asked] at unwritable

theorem contextAlone_neverFails (serve : String → Call → Page) {call c : Call} {context : Value}
    {names : List Value} (filled : call.substitute context = .ok c)
    (opened : opening (context, c) = .ok names) (w : σ) :
    Run.NeverFails (contextAlone serve client endpoint continuation call context) w := by
  intro limit f failed
  unfold contextAlone at failed
  have one : ((Value.arr [context]).iterated >>= firstCalls call) = .ok [(context, c)] :=
    filled_alone rfl filled
  rw [fetchAll_filled one] at failed
  obtain ⟨task, member, w, failed⟩ := Batch.task_of_mem_endings
    (Batch.mem_of_firstFailure? (Batch.firstFailure?_of_join failed))
  obtain rfl := List.mem_singleton.1 member
  rw [fetch_opened opened rfl] at failed
  cases ending : (run client (serving serve client) endpoint continuation limit
    (start context c) w).ending with
  | failed f' => exact run_neverFails calm writes serve _ w limit f' ending
  | _ => simp [ending, Ending.map] at failed

end

end Traversal

namespace Fetch

variable {σ : Type}

/-- The fetch of one request, under the combinations of the pool for the arguments that it asks
for. -/
def requestAlone (definitions : Registry.Definitions) (serve : String → Call → Page)
    (adjust : Adjuster σ) (pool : Value) (typeName : String) (request : Request) (limit : Nat) :
    Run σ (List Item) := do
  let p ← Run.ofNoted (Plan.make definitions request)
  let contexts ← Run.ofNoted (Pool.contexts pool (p.roots.map .named))
  Fetch.request definitions ⟨serving serve, adjust⟩ limit request (.arr (contexts.map .obj))
    (.str typeName)

variable {definitions : Registry.Definitions} {serve : String → Call → Page} {adjust : Adjuster σ}
  {pool : Value} {typeName : String} {request : Request} {job : Job}
  (made : (Plan.make definitions request).result = .ok job.plan)
  (combined : (Pool.contexts pool (job.plan.roots.map .named)).result = .ok job.contexts)

include made combined

theorem ending_requestAlone (limit : Nat) (w : σ) :
    (requestAlone definitions serve adjust pool typeName request limit w).ending =
      ((Traversal.fetchAll job.plan.clientName (serving serve job.plan.clientName)
          (.str job.plan.endpointId) job.plan.pagination.strategy.next limit job.plan.call
          (.arr (job.contexts.map .obj)) >>=
        finish adjust job.plan (.str typeName)) w).ending := by
  unfold requestAlone
  rw [Run.ending_bind_of_done _ (Run.ending_ofNoted made w),
    Run.ending_bind_of_done _ (Run.ending_ofNoted combined _)]
  unfold Fetch.request
  rw [Run.ending_bind_of_done _ (Run.ending_ofNoted made _)]
  exact Run.ending_bind_of_done (a := ()) _ rfl

theorem requestAlone_settles {firsts : List (Value × Call)} (filled : job.begin.firsts = .ok firsts)
    {fetched : List Traversal.Fetched}
    (each : List.Forall₂ (fun first entry =>
      Run.Settles (traverse ⟨serving serve, adjust⟩ · job.plan first) (.done entry)) firsts fetched)
    {ending : Ending (List Item)}
    (finished : ∀ w, (finish adjust job.plan (.str typeName) fetched w).ending = ending) :
    Run.Settles (requestAlone definitions serve adjust pool typeName request) ending := by
  have all : ((Value.arr (job.contexts.map .obj)).iterated >>=
      Traversal.firstCalls job.plan.call) = .ok firsts := filled
  obtain ⟨n, settled⟩ := (Traversal.fetchAll_settles all each).bind finished
  refine ⟨n, fun limit enough w => ?_⟩
  rw [ending_requestAlone made combined]
  exact settled limit enough w

theorem requestAlone_fails
    (fails : Run.Fails (σ := σ) (Traversal.fetchAll job.plan.clientName
      (serving serve job.plan.clientName) (.str job.plan.endpointId)
      job.plan.pagination.strategy.next · job.plan.call (.arr (job.contexts.map .obj)))) :
    Run.Fails (requestAlone definitions serve adjust pool typeName request) := by
  obtain ⟨limit, failed⟩ := fails.bind (finish adjust job.plan (.str typeName))
  refine ⟨limit, fun w => ?_⟩
  rw [ending_requestAlone made combined]
  exact failed w

end Fetch

end Harvest
