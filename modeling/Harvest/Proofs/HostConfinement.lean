import Mathlib
import Harvest.Proofs.Readonly
import Harvest.Wire.Client

namespace Harvest

def Rooted (path : String) : Prop :=
  path.toList.head? = some '/'

theorem Text.trimEnd_prefix (drop : Char → Bool) (cs : List Char) : trimEnd drop cs <+: cs := by
  rw [trimEnd, ← List.reverse_suffix, List.reverse_reverse]
  exact List.dropWhile_suffix drop

theorem Text.trimEnd_cons (drop : Char → Bool) {c : Char} (kept : drop c = false) (cs : List Char) :
    ∃ rest, trimEnd drop (c :: cs) = c :: rest := by
  have nonempty : trimEnd drop (c :: cs) ≠ [] := by
    simp only [trimEnd, ne_eq, List.reverse_eq_nil_iff, List.dropWhile_eq_nil_iff, List.mem_reverse]
    intro all
    rw [all c (by simp)] at kept
    cases kept
  obtain ⟨d, rest, same⟩ := List.exists_cons_of_ne_nil nonempty
  have front : d :: rest <+: c :: cs := same ▸ trimEnd_prefix drop (c :: cs)
  rw [(List.cons_prefix_cons.1 front).1] at same
  exact ⟨rest, same⟩

theorem Link.head?_of_samePath {path next : String} (rooted : Rooted path)
    (same : samePath path next = true) : ∀ c, next.toList.head? = some c → c = '/' := by
  intro c first
  by_contra other
  have kept : (c == '/') = false := by simpa using other
  obtain ⟨cs, chars⟩ := List.head?_eq_some_iff.1 first
  obtain ⟨rest, trimmed⟩ := Text.trimEnd_cons (· == '/') kept cs
  have ends := samePath_iff.1 same
  rw [chars, trimmed] at ends
  have front : c :: rest <+: path.toList := ends ▸ Text.trimEnd_prefix _ path.toList
  obtain ⟨behind, whole⟩ := front
  rw [Rooted, ← whole] at rooted
  exact other (Option.some.inj rooted)

theorem Template.rooted_of_filled {context v : Value} {path : String} (rooted : Rooted path)
    (filled : fillString context path = .ok ⟨v, []⟩) : Rooted v.text := by
  obtain ⟨cs, chars⟩ := List.head?_eq_some_iff.1 rooted
  have cutOff : pieces path = .char '/' :: cut none cs := by simp [pieces, chars, cut]
  unfold fillString at filled
  rw [cutOff] at filled
  obtain ⟨whole, expanded, filled⟩ := bind_eq_ok.1 filled
  obtain ⟨others, -, added⟩ := bind_eq_ok.1 expanded
  cases added
  obtain ⟨rfl, -⟩ := Filled.mk.inj (Except.ok.inj filled)
  simp [Rooted, Value.text]

namespace Wire.Setup

variable {setup : Setup} {base : String}

theorem base_of_make {timeout headers : Value} (made : make (.str base) timeout headers = .ok setup)
    (nonempty : Text.trimEnd (· == '/') base.toList ≠ []) :
    setup.base = some (String.ofList (Text.trimEnd (· == '/') base.toList)) := by
  obtain ⟨read, based, made⟩ := bind_eq_ok.1 made
  obtain ⟨all, -, made⟩ := bind_eq_ok.1 made
  cases made
  have given : base ≠ "" := by
    rintro rfl
    exact nonempty rfl
  simp only [readBase, Value.isBlank, beq_iff_eq, given, if_false] at based
  cases based
  rfl

theorem not_isAbsolute {path : String} (slash : ∀ c, path.toList.head? = some c → c = '/') :
    isAbsolute path = false := by
  have other : ∀ cs, ('h' :: cs).isPrefixOf path.toList = false := by
    intro cs
    rw [Bool.eq_false_iff, ne_eq, List.isPrefixOf_iff_prefix]
    rintro ⟨behind, whole⟩
    have first : path.toList.head? = some 'h' := by rw [← whole]; rfl
    exact absurd (slash 'h' first) (by decide)
  rw [isAbsolute, Bool.or_eq_false_iff]
  exact ⟨other _, other _⟩

theorem urlFor_below {path : String} {cs : List Char} (based : setup.base = some (String.ofList cs))
    (nonempty : cs ≠ []) (relative : isAbsolute path = false) :
    cs ++ ['/'] <+: (setup.urlFor path).toList := by
  have given : String.ofList cs ≠ "" := by simpa [String.ofList_eq_empty_iff] using nonempty
  simp [urlFor, based, given, relative]

end Wire.Setup

namespace Schedule

variable {σ : Type} {definitions : Registry.Definitions} {request : Request} {p : Plan}

theorem Confined.slash {available : List String} {target : Endpoint.Target} {context : Value}
    {sent : List (String × Call)} (confined : Confined available definitions target context sent)
    (rooted : Rooted target.path) {x : String × Call} (member : x ∈ sent) :
    ∀ c, x.2.path.toList.head? = some c → c = '/' := by
  obtain ⟨first, others, rfl⟩ := List.exists_cons_of_ne_nil (List.ne_nil_of_mem member)
  obtain ⟨v, filled, text⟩ := confined.path first rfl
  have continues := confined.later first rfl x member
  apply Link.head?_of_samePath _ continues.path
  rw [text]
  exact Template.rooted_of_filled rooted filled

theorem slash_of_run {s : Surroundings σ} {adapter typeName : Value} {contexts : List Value}
    {labels : List (Option (OwnerLabel (List Event)))} {t : JobTask}
    (made : (Plan.make definitions request).result = .ok p)
    (run : RequestRun s adapter typeName p (Traversal.firstCalls p.call contexts) labels t)
    (rooted : Rooted request.target.value.path) {x : String × Call}
    (member : x ∈ batchCalls labels) : ∀ c, x.2.path.toList.head? = some c → c = '/' := by
  have confined := (JobTask.course_of_run run).confined (Plan.bound_of_make made) fun _ here => here
  obtain ⟨n, context, found, here⟩ := confined.placed x member
  exact (confined.confined n context found).slash rooted here

/-- Every call is sent below the base address, whatever contexts put into its path and whatever the
pages hold, if the path of its endpoint begins with a slash. -/
theorem urls_confined {base : String} {timeout headers : Value} {setup : Wire.Setup}
    (made : Wire.Setup.make (.str base) timeout headers = .ok setup)
    (nonempty : Text.trimEnd (· == '/') base.toList ≠ []) (definitions : Registry.Definitions)
    (s : Surroundings σ) :
    (∀ request contexts typeName p labels t,
      (Plan.make definitions request).result = .ok p →
      RequestRun s definitions.adapterName typeName p (Traversal.firstCalls p.call contexts)
        labels t →
      Rooted request.target.value.path →
      ∀ x ∈ batchCalls labels,
        Text.trimEnd (· == '/') base.toList ++ ['/'] <+: (setup.sent x.2).url.toList) ∧
    ∀ typeName pool jobs labels o,
      (Fetch.jobs definitions pool ((definitions.requests.query typeName).map (·.value))).result =
        .ok jobs →
      ResourceRun s definitions.adapterName (.str typeName) jobs labels o →
      ∀ x ∈ resourceCalls labels, ∃ n request,
        (definitions.requests.query typeName)[n]? = some request ∧
        x ∈ batchCalls (labelsAt n labels) ∧
        (Rooted request.value.target.value.path →
          Text.trimEnd (· == '/') base.toList ++ ['/'] <+: (setup.sent x.2).url.toList) := by
  have based := Wire.Setup.base_of_make made nonempty
  have below : ∀ call : Call, (∀ c, call.path.toList.head? = some c → c = '/') →
      Text.trimEnd (· == '/') base.toList ++ ['/'] <+: (setup.sent call).url.toList :=
    fun call slash => Wire.Setup.urlFor_below based nonempty (Wire.Setup.not_isAbsolute slash)
  refine ⟨?_, ?_⟩
  · intro request contexts typeName p labels t made run rooted x member
    exact below x.2 (slash_of_run made run rooted member)
  · intro typeName pool jobs labels o bound run x member
    obtain ⟨n, job, found, here⟩ := call_of_run run member
    obtain ⟨bare, mapped, made, -⟩ := getElem?_of_forall₂ (Fetch.jobs_eq_ok bound).flip found
    rw [List.getElem?_map] at mapped
    obtain ⟨request, asked, rfl⟩ := Option.map_eq_some_iff.1 mapped
    refine ⟨n, request, asked, here, fun rooted => ?_⟩
    obtain ⟨t, -, course⟩ := job_of_run run found
    exact below x.2 (slash_of_run made course rooted here)

def linkedPagination : Pagination.Definition :=
  ⟨"linked", .cursor (.str "next") .same, []⟩

def linkedPlan : Plan :=
  { plainPlan with
    endpoint := ⟨⟨⟨none, none, .null, none, some "linked"⟩, "/a", .get, some "main"⟩, true⟩
    pagination := linkedPagination }

def linkedDefinitions : Registry.Definitions :=
  { partDefinitions with
    clients := [("main", ⟨[(("/a", .get),
      ⟨⟨⟨none, none, .null, none, some "linked"⟩, true⟩, .endpointEntry, [],
        ["pagination", "readonly"]⟩)]⟩)]
    paginations := ⟨[("linked", linkedPagination), ("none", .single)]⟩ }

def elsewhere : Page :=
  ⟨.obj [("next", .str "https://elsewhere/a//?p=2")], 200, []⟩

def behindLink : Call :=
  ⟨"/a//", .get, [("p", .str "2")], [], .null⟩

theorem linked_next (history : History) :
    linkedPlan.channel.continuation history elsewhere linkedPlan.call = pure (some behindLink) := by
  have found : Pagination.valueAt elsewhere.data (.str "next") =
      .ok (.str "https://elsewhere/a//?p=2") := by cbv
  have parsed : Link.parse? "https://elsewhere/a//?p=2" = some ⟨"/a//", ['p', '=', '2']⟩ := rfl
  have arguments : Link.queryArguments ['p', '=', '2'] = [("p", "2")] := by decide +kernel
  have same : Link.samePath "/a" "/a//" = true := by decide +kernel
  have followed : Pagination.followed linkedPlan.call ⟨"/a//", ['p', '=', '2']⟩ = behindLink := by
    simp [Pagination.followed, arguments, linkedPlan, plainPlan, behindLink, Members.put]
  have allowed : Pagination.PathCheck.same.allows linkedPlan.call.path behindLink.path = .ok true :=
    congrArg Except.ok same
  have byLink : Pagination.nextByLink .same linkedPlan.call "https://elsewhere/a//?p=2" =
      pure (some behindLink) := by
    simp only [Pagination.nextByLink, parsed, followed, allowed]
    rfl
  change Pagination.nextByCursor (.str "next") .same elsewhere linkedPlan.call = _
  simp only [Pagination.nextByCursor, found]
  exact byLink

theorem linked_received :
    linkedPlan.channel.received (.start (.obj []) linkedPlan.call) elsewhere =
      ([.notice (.pageFetched linkedPlan.channel.endpoint 0 200),
        .consulted ⟨.obj [], [linkedPlan.call]⟩ linkedPlan.call elsewhere,
        .called "main" behindLink],
      ⟨.waiting ⟨.obj [], [linkedPlan.call, behindLink], behindLink, [elsewhere]⟩, false, none⟩) := by
  have writable : behindLink.isWritable = true := by decide +kernel
  have new : (linkedPlan.call.fingerprint == behindLink.fingerprint) = false := by decide +kernel
  have goesOn : (Traversal.start (.obj []) linkedPlan.call).receive linkedPlan.channel.endpoint
      linkedPlan.channel.continuation elsewhere =
        ([.notice (.pageFetched linkedPlan.channel.endpoint 0 200),
          .consulted ⟨.obj [], [linkedPlan.call]⟩ linkedPlan.call elsewhere],
        .goOn ⟨.obj [], [linkedPlan.call, behindLink], behindLink, [elsewhere]⟩) := by
    simp only [Traversal.receive, Traversal.start, linked_next]
    simp [Pure.pure, writable, Traversal.seen, new, Traversal.advance, Traversal.history, elsewhere]
  rw [Channel.received, goesOn]
  rfl

theorem linked_run : ∃ labels t,
    RequestRun anyAnswers (.str "shop") (.str "T") linkedPlan
      (Traversal.firstCalls linkedPlan.call [.obj []]) labels t ∧
    batchCalls labels = [("main", linkedPlan.call), ("main", behindLink)] := by
  have filled : Traversal.firstCalls linkedPlan.call [.obj []] = .ok [(.obj [], linkedPlan.call)] := by
    cbv
  have opening : Traversal.opening (.obj [], linkedPlan.call) = .ok [] := by cbv
  have first : ContextTask.Step anyAnswers linkedPlan.channel
      ⟨.fresh (.obj [], linkedPlan.call), false, none⟩ _ _ := .opened
  have second : ContextTask.Step anyAnswers linkedPlan.channel
      ⟨.waiting (.start (.obj []) linkedPlan.call), false, none⟩
      (linkedPlan.channel.received (.start (.obj []) linkedPlan.call) elsewhere).1 _ :=
    .page trivial
  simp only [Channel.opened, opening] at first
  rw [linked_received] at second
  rw [filled]
  exact ⟨_, _, Steps.cons (.step .begun) (.cons (.step (.owning (.task (n := 0) rfl first)))
    (.single (.step (.owning (.task (n := 0) rfl second))))), rfl⟩

theorem linked_urls_confined :
    ∃ setup labels t, Wire.Setup.make (.str "http://host/") .null .null = .ok setup ∧
    RequestRun anyAnswers (.str "shop") (.str "T") linkedPlan
      (Traversal.firstCalls linkedPlan.call [.obj []]) labels t ∧
    batchCalls labels = [("main", linkedPlan.call), ("main", behindLink)] ∧
    "http://host/".toList <+: (setup.sent behindLink).url.toList := by
  have read : ∃ setup, Wire.Setup.make (.str "http://host/") .null .null = .ok setup := ⟨_, rfl⟩
  have made : (Plan.make linkedDefinitions linkedPlan.request).result = .ok linkedPlan := by cbv
  have base : Text.trimEnd (· == '/') "http://host/".toList ++ ['/'] = "http://host/".toList := by
    decide
  obtain ⟨setup, read⟩ := read
  obtain ⟨labels, t, run, sent⟩ := linked_run
  have called : ("main", behindLink) ∈ batchCalls labels := by simp [sent]
  have below := (urls_confined read (by decide) linkedDefinitions anyAnswers).1 _ _ _ _ _ _ made
    run rfl _ called
  rw [base] at below
  exact ⟨setup, labels, t, read, run, sent, below⟩

end Schedule

end Harvest
