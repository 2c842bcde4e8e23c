import Mathlib
import Harvest.Proofs.PageLoop

namespace Harvest

def Event.notice? : Event → Option Notice
  | notice n => some n
  | _ => none

def noticesIn (events : List Event) : List Notice :=
  events.filterMap Event.notice?

@[simp] theorem noticesIn_nil : noticesIn [] = [] := rfl

@[simp] theorem noticesIn_cons (e : Event) (events : List Event) :
    noticesIn (e :: events) = e.notice?.toList ++ noticesIn events := by
  unfold noticesIn
  cases h : e.notice? <;> simp [h]

@[simp] theorem noticesIn_append (first second : List Event) :
    noticesIn (first ++ second) = noticesIn first ++ noticesIn second :=
  List.filterMap_append

@[simp] theorem noticesIn_notices (notices : List Notice) :
    noticesIn (notices.map .notice) = notices := by
  unfold noticesIn
  rw [List.filterMap_map]
  exact List.filterMap_some

namespace Traversal

variable {σ : Type} {client : String} {execute : Client σ} {endpoint : Value}
  {continuation : Pagination.Continuation} {first : Value × Call} {w w' : σ}
  {exchanges : List Exchange} {events : List Event} {t : Traversal}

def pageReports (endpoint : Value) (continuation : Pagination.Continuation)
    (asked : List (History × Exchange)) : List Notice :=
  (asked.mapIdx fun i a => .pageFetched endpoint i a.2.page.status ::
    (continuation a.1 a.2.page a.2.call).notices).flatten

theorem pageReports_concat (asked : List (History × Exchange)) (a : History × Exchange) :
    pageReports endpoint continuation (asked ++ [a]) = pageReports endpoint continuation asked ++
      .pageFetched endpoint asked.length a.2.page.status ::
        (continuation a.1 a.2.page a.2.call).notices := by
  simp [pageReports, List.mapIdx_append]

theorem length_consultations (context : Value) (exchanges : List Exchange) :
    (consultations context exchanges).length = exchanges.length :=
  List.length_mapIdx

theorem noticesIn_pageEvents (t : Traversal) (page : Page) :
    noticesIn (.called client t.current :: pageEvents endpoint continuation t page) =
      .pageFetched endpoint t.pages.length page.status ::
        (continuation t.history page t.current).notices := by
  simp [pageEvents, Event.notice?]

theorem Exchanged.reported_snoc
    (exchanged : Exchanged client execute continuation first w exchanges events t w')
    (reported : noticesIn events =
      pageReports endpoint continuation (consultations first.1 exchanges)) (page : Page) :
    noticesIn (events ++ .called client t.current :: pageEvents endpoint continuation t page) =
      pageReports endpoint continuation
        (consultations first.1 (exchanges ++ [⟨t.current, page⟩])) := by
  have count : t.pages.length = exchanges.length := by rw [exchanged.pages, List.length_map]
  have history : t.history = ⟨first.1, exchanges.map Exchange.call ++ [t.current]⟩ := by
    rw [Traversal.history, exchanged.context, exchanged.calls]
  rw [noticesIn_append, reported, noticesIn_pageEvents, consultations_snoc, pageReports_concat,
    length_consultations, count, history]

theorem Trail.reported
    (trail : Trail client execute endpoint continuation first w exchanges events t w') :
    noticesIn events = pageReports endpoint continuation (consultations first.1 exchanges) := by
  induction trail with
  | start => rfl
  | goOn trail _ _ _ _ ih => exact trail.exchanged.reported_snoc ih _

def cutOff : Failure :=
  .transport "cut off" .null

end Traversal

end Harvest
