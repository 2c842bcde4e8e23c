import Harvest.Proofs.Declared
import Harvest.Proofs.Merging
import Harvest.Proofs.Sorting
import Harvest.Proofs.WriteBack

namespace Harvest

section Pairs

variable {α β : Type} {R S : α → β → Prop} {left : List α} {right : List β}

theorem forall₂_zipWith {f : α → β → β} (all : List.Forall₂ R left right)
    (each : ∀ a b, R a b → S a (f a b)) : List.Forall₂ S left (List.zipWith f left right) := by
  induction all with
  | nil => exact .nil
  | cons head _ ih => exact .cons (each _ _ head) ih

theorem forall₂_congr_of_mem (same : ∀ a ∈ left, ∀ b, R a b ↔ S a b) :
    List.Forall₂ R left right ↔ List.Forall₂ S left right := by
  constructor <;> intro all
  · refine ((List.forall₂_and_left _ _).2 ⟨fun _ member => member, all⟩).imp ?_
    exact fun a b ⟨member, related⟩ => (same a member b).1 related
  · refine ((List.forall₂_and_left _ _).2 ⟨fun _ member => member, all⟩).imp ?_
    exact fun a b ⟨member, related⟩ => (same a member b).2 related

theorem zipWith_eq_right_iff {f : α → β → β} (all : List.Forall₂ R left right) :
    List.zipWith f left right = right ↔ List.Forall₂ (fun a b => f a b = b) left right := by
  induction all with
  | nil => simp
  | cons _ _ ih => rw [List.zipWith_cons_cons, List.cons.injEq, List.forall₂_cons, ih]

theorem forall₂_congr_of_forall₂ {T : α → β → Prop} (all : List.Forall₂ R left right)
    (same : ∀ a b, R a b → (S a b ↔ T a b)) :
    List.Forall₂ S left right ↔ List.Forall₂ T left right := by
  induction all with
  | nil => simp
  | cons head _ ih => rw [List.forall₂_cons, List.forall₂_cons, same _ _ head, ih]

end Pairs

namespace Registry.Requests

open Config

/-- How an entry is given: as a whole record, or as plain data with records in some places. -/
inductive Form where
  | whole
  | parts (target transformation : Bool)

/-- The members of an entry, the request that they make up by themselves, and the form in which the
entry is given. -/
structure Item where
  members : Fields
  alone : Given Request
  form : Form

namespace Item

structure Valid (i : Item) : Prop where
  plain : (Value.obj i.members).isPlain = true
  alone : Request.read (.obj i.members) = .ok i.alone

def plain (i : Item) : Value :=
  .obj i.members

def part (alone : Given Request) (target transformation : Bool) (m : String × Value) : Value :=
  match m.1, target, transformation with
  | "endpoint", true, _ => alone.value.target.record Endpoint.Target.members
  | "transformation", _, true => alone.value.transformation.record Transformation.members
  | _, _, _ => m.2

def written (i : Item) : Value :=
  match i.form with
  | .whole => i.alone.record Request.members
  | .parts target transformation =>
    .obj (i.members.map fun m => (m.1, part i.alone target transformation m))

def masked (i : Item) (request : Given Request) : Given Request :=
  match i.form with
  | .whole => request
  | .parts target transformation =>
    { request with
      value := { request.value with
        target := if target then i.alone.value.target else request.value.target
        transformation :=
          if transformation && Members.has i.members "transformation" then
            i.alone.value.transformation
          else request.value.transformation } }

section Parts

variable {alone request : Given Request} {target transformation : Bool} {ms lower : Fields}

def parted (alone : Given Request) (target transformation : Bool) (ms : Fields) : Fields :=
  ms.map fun m => (m.1, part alone target transformation m)

theorem target_of_alone (plain : (Value.obj ms).isPlain = true)
    (read : Request.read (.obj ms) = .ok alone) : ∃ inner,
      Members.get? ms "endpoint" = some (.obj inner) ∧
      Endpoint.Target.read (.obj inner) = .ok alone.value.target := by
  obtain ⟨⟨built, -⟩, -⟩ := Given.readClosed_obj.1 read
  obtain ⟨target, -, -⟩ := Request.build_eq_ok.1 built
  cases found : Members.get? ms "endpoint" with
  | none =>
    rw [Field.required, found] at target
    cases target
  | some v =>
    rw [Field.required_eq_ok found] at target
    obtain ⟨inner, rfl⟩ := Given.object_of_readClosed (Value.isPlain_of_get? plain found) target
    exact ⟨inner, rfl, target⟩

theorem transformation_of_alone (plain : (Value.obj ms).isPlain = true)
    (read : Request.read (.obj ms) = .ok alone) {v : Value}
    (found : Members.get? ms "transformation" = some v) : ∃ inner, v = .obj inner ∧
      Transformation.read (.obj inner) = .ok alone.value.transformation := by
  obtain ⟨⟨built, -⟩, -⟩ := Given.readClosed_obj.1 read
  obtain ⟨-, transformation, -⟩ := Request.build_eq_ok.1 built
  rw [Field.optional_eq_ok found] at transformation
  obtain ⟨inner, rfl⟩ :=
    Given.object_of_readClosed (Value.isPlain_of_get? plain found) transformation
  exact ⟨inner, rfl, transformation⟩

theorem keys_parted : Members.keys (parted alone target transformation ms) = Members.keys ms := by
  simp [parted, Members.keys]

theorem get?_overlay_parted (distinct : (Members.keys ms).Nodup) (name : String) :
    Members.get? (overlay lower (parted alone target transformation ms)) name =
      match Members.get? ms name with
      | none => Members.get? lower name
      | some v => Members.get? (overlayMember lower name
          (part alone target transformation (name, v))) name := by
  have places : (Members.keys (parted alone target transformation ms)).Nodup := by
    rw [keys_parted]
    exact distinct
  rw [get?_overlay places, parted, get?_map]
  cases Members.get? ms name <;> rfl

theorem unparted_rel (distinct : (Members.keys ms).Nodup) {name : String}
    (same : ∀ v, Members.get? ms name = some v →
      part alone target transformation (name, v) = v) :
    Option.Rel Eq (Members.get? (overlay lower ms) name)
      (Members.get? (overlay lower (parted alone target transformation ms)) name) := by
  rw [get?_overlay_parted distinct, get?_overlay distinct]
  cases found : Members.get? ms name with
  | none => exact rel_refl (fun _ => rfl) _
  | some v =>
    dsimp only
    rw [same v found]
    exact rel_refl (fun _ => rfl) _

theorem get?_overlay_record (distinct : (Members.keys ms).Nodup) {name : String} {v w : Value}
    (found : Members.get? ms name = some v)
    (record : part alone target transformation (name, v) = w) (leaf : w.isLeaf = true) :
    Members.get? (overlay lower (parted alone target transformation ms)) name = some w := by
  rw [get?_overlay_parted distinct, found]
  dsimp only
  rw [record, get?_overlayMember_leaf leaf]

section Read

variable (plain : (Value.obj ms).isPlain = true) (aloneRead : Request.read (.obj ms) = .ok alone)

include plain aloneRead

theorem target_of_parted (built : Request.build (overlay lower ms) = .ok request.value) :
    Field.required (overlay lower (parted alone target transformation ms)) "endpoint"
      Endpoint.Target.read = .ok (if target then alone.value.target else request.value.target) := by
  have distinct := Value.nodup_of_isPlain plain
  obtain ⟨inner, found, targetRead⟩ := target_of_alone plain aloneRead
  cases target with
  | true =>
    have path := (Endpoint.Target.sound_of_read (by rintro _ _ _ ⟨⟩) targetRead).2
    rw [Field.required_eq_ok (get?_overlay_record distinct found rfl rfl)]
    exact Endpoint.Target.writes.read_record targetRead (Endpoint.Target.build_members path)
  | false =>
    have whole := (Request.build_eq_ok.1 built).1
    exact (Field.agree_required Field.agree_of_eq (unparted_rel distinct fun _ _ => rfl) _).1 whole

theorem transformation_of_parted (built : Request.build (overlay lower ms) = .ok request.value) :
    Field.optional (overlay lower (parted alone target transformation ms)) "transformation"
      Transformation.plain Transformation.read =
      .ok (if transformation && Members.has ms "transformation" then alone.value.transformation
        else request.value.transformation) := by
  have distinct := Value.nodup_of_isPlain plain
  have whole := (Request.build_eq_ok.1 built).2.1
  cases transformation with
  | true =>
    cases found : Members.get? ms "transformation" with
    | none =>
      have absent : Members.has ms "transformation" = false := by rw [Members.has, found]; rfl
      rw [absent]
      have unparted : Option.Rel Eq (Members.get? (overlay lower ms) "transformation")
          (Members.get? (overlay lower (parted alone target true ms)) "transformation") :=
        unparted_rel distinct fun v given => by simp [found] at given
      exact (Field.agree_optional Field.agree_of_eq unparted _).1 whole
    | some v =>
      have present : Members.has ms "transformation" = true := by rw [Members.has, found]; rfl
      obtain ⟨inner, rfl, transformationRead⟩ := transformation_of_alone plain aloneRead found
      rw [Field.optional_eq_ok (get?_overlay_record distinct found rfl rfl), present]
      exact Transformation.writes.read_record transformationRead (Transformation.build_members _)
  | false =>
    exact (Field.agree_optional Field.agree_of_eq (unparted_rel distinct fun _ _ => rfl) _).1 whole

theorem has_parted : Members.has (overlay lower (parted alone target transformation ms)) =
    Members.has (overlay lower ms) := by
  have distinct := Value.nodup_of_isPlain plain
  funext name
  rw [Members.has, Members.has, get?_overlay_parted distinct, get?_overlay distinct]
  cases found : Members.get? ms name with
  | none => rfl
  | some v =>
    -- The member is there in either way: a record replaces what is below it, an object covers it.
    dsimp only
    unfold part
    split
    next here =>
      obtain rfl : name = "endpoint" := here
      obtain ⟨inner, held, -⟩ := target_of_alone plain aloneRead
      obtain rfl : v = .obj inner := Option.some.inj (found.symm.trans held)
      rw [get?_overlayMember_leaf rfl]
      simp [overlayMember]
    next here =>
      obtain rfl : name = "transformation" := here
      obtain ⟨inner, rfl, -⟩ := transformation_of_alone plain aloneRead found
      rw [get?_overlayMember_leaf rfl]
      simp [overlayMember]
    next => rfl

theorem read_parted (read : Request.read (.obj (overlay lower ms)) = .ok request) :
    Request.read (.obj (overlay lower (parted alone target transformation ms))) =
      .ok ⟨⟨if target then alone.value.target else request.value.target,
        if transformation && Members.has ms "transformation" then alone.value.transformation
          else request.value.transformation, request.value.context⟩,
        request.kind, request.further, request.names⟩ := by
  obtain ⟨⟨built, known⟩, same⟩ := Given.readClosed_obj.1 read
  obtain ⟨⟨-, aloneKnown⟩, -⟩ := Given.readClosed_obj.1 aloneRead
  have distinct := Value.nodup_of_isPlain plain
  have partedKnown : ∀ m ∈ parted alone target transformation ms,
      m.1 ∈ Kind.request.memberNames := by
    intro m member
    obtain ⟨n, inside, rfl⟩ := List.mem_map.1 member
    exact aloneKnown n inside
  have context := (Request.build_eq_ok.1 built).2.2
  refine Given.readClosed_obj.2 ⟨⟨Request.build_eq_ok.2 ⟨?_, ?_, ?_⟩, ?_⟩, ?_⟩
  · exact target_of_parted plain aloneRead built
  · exact transformation_of_parted plain aloneRead built
  · exact (Field.agree_optional Field.agree_of_eq
      (unparted_rel distinct fun _ _ => rfl) _).1 context
  · exact (known_overlay partedKnown).2 ((known_overlay aloneKnown).1 known)
  · rw [has_parted plain aloneRead, same]

end Read

end Parts

theorem read_written {i : Item} (valid : i.Valid) {default : Value} {request : Given Request}
    (read : Request.read (.obj (atop default.opened i.plain.opened)) = .ok request) :
    Request.read (.obj (atop default.opened i.written.opened)) = .ok (i.masked request) := by
  obtain ⟨ms, alone, form⟩ := i
  cases form with
  | whole => exact (Request.writes.agree_given valid.plain valid.alone _ _).1 read
  | parts target transformation => exact read_parted valid.plain valid.alone read

theorem read_written_of_whole {i : Item} (valid : i.Valid) (whole : i.form = .whole)
    (default : Value) (request : Given Request) :
    Request.read (.obj (atop default.opened i.written.opened)) = .ok request ↔
      Request.read (.obj (atop default.opened i.plain.opened)) = .ok request := by
  obtain ⟨ms, alone, form⟩ := i
  obtain rfl : form = .whole := whole
  exact (Request.writes.agree_given valid.plain valid.alone _ _).symm

/-- The default has nothing to say where the entry holds a record. -/
def Unmasked (i : Item) (request : Given Request) : Prop :=
  ∀ target transformation, i.form = .parts target transformation →
    (target = true → i.alone.value.target = request.value.target) ∧
    (transformation = true → Members.has i.members "transformation" = true →
      i.alone.value.transformation = request.value.transformation)

theorem masked_eq_self_iff {i : Item} {request : Given Request} :
    i.masked request = request ↔ i.Unmasked request := by
  obtain ⟨ms, alone, form⟩ := i
  obtain ⟨⟨own, ownTransformation, context⟩, kind, further, names⟩ := request
  cases form with
  | whole => simp [masked, Unmasked]
  | parts target transformation =>
    cases target <;> cases transformation <;> cases Members.has ms "transformation" <;>
      simp [masked, Unmasked]

theorem isLayer_plain (i : Item) : i.plain.opened.isLayer = true := by
  simp [plain, Value.opened, Value.isLayer, Value.isObject]

theorem isLayer_written (i : Item) : i.written.opened.isLayer = true := by
  unfold written
  split <;> simp [Given.record, Value.opened, Value.given, Value.isLayer, Value.isObject]

end Item

def listing (write : Item → Value) (types : List (String × List Item)) : Value :=
  .obj (types.map fun m => (m.1, .arr (m.2.map write)))

def masked (types : List (String × List Item)) (r : Requests) : Requests :=
  ⟨List.zipWith (fun m n => (n.1, List.zipWith Item.masked m.2 n.2)) types r.byType⟩

variable {default : Value} {types : List (String × List Item)} {r : Requests}

theorem laid_listed {write : Item → Value} (layer : ∀ i, (write i).opened.isLayer = true)
    (items : List Item) : Laid default (.arr (items.map write)) ↔
      (items ≠ [] → default.opened.isLayer = true) := by
  have opened : (Value.arr (items.map write)).opened = .arr ((items.map write).map Value.opened) :=
    Value.opened_eq_arr.2 ⟨_, rfl, rfl⟩
  rw [Laid, opened]
  cases items with
  | nil => simp [Value.parts]
  | cons i rest =>
    simp only [Value.parts, List.forall_mem_map, layer, and_true]
    exact ⟨fun all _ => all i List.mem_cons_self, fun base _ _ => base (List.cons_ne_nil i rest)⟩

theorem fits_listed {write : Item → Value} {items : List Item} {requests : List (Given Request)} :
    Fits default (.arr (items.map write)) requests ↔ List.Forall₂ (fun i request =>
      Request.read (.obj (atop default.opened (write i).opened)) = .ok request) items requests := by
  simp [Fits, List.forall₂_map_left_iff]

theorem read_listing {write : Item → Value} (layer : ∀ i, (write i).opened.isLayer = true) :
    read default (listing write types) = .ok r ↔ List.Forall₂ (fun m n => n.1 = m.1 ∧
      (m.2 ≠ [] → default.opened.isLayer = true) ∧ List.Forall₂ (fun i request =>
        Request.read (.obj (atop default.opened (write i).opened)) = .ok request) m.2 n.2)
      types r.byType := by
  have object : (listing write types).isLayer = true := by
    simp [listing, Value.isLayer, Value.isObject]
  rw [read_eq_ok, and_iff_right object, listing, Value.fields, List.forall₂_map_left_iff]
  simp only [laid_listed layer, fits_listed]

section Listed

variable (valid : ∀ m ∈ types, ∀ i ∈ m.2, i.Valid)

include valid

theorem read_written_of_plain (h : read default (listing Item.plain types) = .ok r) :
    read default (listing Item.written types) = .ok (masked types r) := by
  have each := (List.forall₂_and_left _ _).2 ⟨valid, (read_listing Item.isLayer_plain).1 h⟩
  refine (read_listing Item.isLayer_written).2 (forall₂_zipWith each ?_)
  rintro m n ⟨valid, named, base, requests⟩
  refine ⟨named, base, forall₂_zipWith ((List.forall₂_and_left _ _).2 ⟨valid, requests⟩) ?_⟩
  rintro i request ⟨valid, accepted⟩
  exact Item.read_written valid accepted

theorem read_written_of_whole (whole : ∀ m ∈ types, ∀ i ∈ m.2, i.form = .whole) :
    read default (listing Item.written types) = .ok r ↔
      read default (listing Item.plain types) = .ok r := by
  rw [read_listing Item.isLayer_written, read_listing Item.isLayer_plain]
  refine forall₂_congr_of_mem fun m member n => ?_
  refine and_congr_right fun _ => and_congr_right fun _ => ?_
  exact forall₂_congr_of_mem fun i inside request =>
    Item.read_written_of_whole (valid m member i inside) (whole m member i inside) default request

theorem read_written_iff (h : read default (listing Item.plain types) = .ok r) :
    read default (listing Item.written types) = .ok r ↔
      List.Forall₂ (fun m n => List.Forall₂ Item.Unmasked m.2 n.2) types r.byType := by
  have each := (read_listing Item.isLayer_plain).1 h
  rw [read_written_of_plain valid h, Except.ok.injEq]
  obtain ⟨byType⟩ := r
  rw [masked, Requests.mk.injEq, zipWith_eq_right_iff each]
  refine forall₂_congr_of_forall₂ each fun m n related => ?_
  have unmasked := zipWith_eq_right_iff (f := Item.masked) related.2.2
  simp only [Item.masked_eq_self_iff] at unmasked
  rw [← unmasked, Prod.ext_iff]
  exact and_iff_right rfl

end Listed

/-- From entries in whatever form the registry is the one from plain data, except that a record in a
place of an entry masks the default there. So both are the same if and only if the default has
nothing to say in such a place; and from whole records it always is. -/
theorem read_forms (default : Value) (types : List (String × List Item)) (r : Requests)
    (valid : ∀ m ∈ types, ∀ i ∈ m.2, i.Valid) :
    (read default (listing Item.plain types) = .ok r →
      read default (listing Item.written types) = .ok (masked types r) ∧
      (read default (listing Item.written types) = .ok r ↔
        List.Forall₂ (fun m n => List.Forall₂ Item.Unmasked m.2 n.2) types r.byType)) ∧
    ((∀ m ∈ types, ∀ i ∈ m.2, i.form = .whole) →
      (read default (listing Item.written types) = .ok r ↔
        read default (listing Item.plain types) = .ok r)) :=
  ⟨fun h => ⟨read_written_of_plain valid h, read_written_iff valid h⟩, read_written_of_whole valid⟩

def headed : Value :=
  .obj [("endpoint", .obj [("headers", .obj [("A", .str "1")])])]

def asking (headers : Option Fields) (given : List String) : Given Request :=
  ⟨⟨⟨⟨⟨none, headers, .null, none, none⟩, "/a", .get, none⟩, .endpointTarget, [], given⟩,
    Transformation.plain, []⟩, .request, [], ["endpoint"]⟩

def Item.asking (form : Form) : Item :=
  ⟨[("endpoint", .obj [("path", .str "/a")])], Requests.asking none ["path"], form⟩

theorem Item.asking_valid (form : Form) : (Item.asking form).Valid where
  plain := rfl
  alone := by cbv

theorem record_inside_masks_default :
    (Item.asking (.parts true false)).Valid ∧
    read headed (listing Item.plain [("T", [Item.asking (.parts true false)])]) =
      .ok ⟨[("T", [asking (some [("A", .str "1")]) ["headers", "path"]])]⟩ ∧
    read headed (listing Item.written [("T", [Item.asking (.parts true false)])]) =
      .ok ⟨[("T", [asking none ["path"]])]⟩ := by
  refine ⟨Item.asking_valid _, ?_, ?_⟩ <;> cbv

theorem whole_record_layered :
    (∀ m ∈ [("T", [Item.asking .whole])], ∀ i ∈ m.2, i.Valid) ∧
    read headed (listing Item.written [("T", [Item.asking .whole])]) =
      .ok ⟨[("T", [asking (some [("A", .str "1")]) ["headers", "path"]])]⟩ := by
  have valid : ∀ m ∈ [("T", [Item.asking .whole])], ∀ i ∈ m.2, i.Valid := by
    simp [Item.asking_valid]
  have plain : read headed (listing Item.plain [("T", [Item.asking .whole])]) =
      .ok ⟨[("T", [asking (some [("A", .str "1")]) ["headers", "path"]])]⟩ := by
    cbv
  refine ⟨valid, ((read_forms headed _ _ valid).2 ?_).2 plain⟩
  simp [Item.asking]

end Registry.Requests

end Harvest
