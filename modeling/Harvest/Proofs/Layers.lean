import Mathlib.Data.List.DropRight
import Harvest.Proofs.Parts
import Harvest.Proofs.Respelled

namespace Harvest

namespace Value

def isNull : Value → Bool
  | null => true
  | _ => false

/-- The value at a path that leads through objects only. -/
def reach : Value → List String → Option Value
  | v, [] => some v
  | v, name :: rest =>
    match v with
    | obj members => (Members.get? members name).bind (reach · rest)
    | _ => none

theorem reach_of_not_isObject {v : Value} (other : v.isObject = false) (name : String)
    (rest : List String) : reach v (name :: rest) = none := by
  cases v with
  | obj => cases other
  | _ => rfl

end Value

namespace Config

/-- The values that layers give a name, from the lowest layer to the highest; a null is none. -/
def said (layers : List Fields) (name : String) : List Value :=
  layers.filterMap fun layer => (Members.get? layer name).filter (!·.isNull)

def objectsAtop (values : List Value) : List Fields :=
  (values.rtakeWhile Value.isObject).map Value.fields

def settled (values : List Value) : Option Value :=
  values.getLast?.map fun v => if v.isObject then .obj (flatten (objectsAtop values)) else v

/-- The value at a path, by the layers that have a say in it: at each name only those go on that
hold an object there and are not hidden by a value above. -/
def decided : List String → List Fields → Option Value
  | [], layers => some (.obj (flatten layers))
  | name :: rest, layers => (said layers name).getLast?.bind fun v =>
    if v.isObject then decided rest (objectsAtop (said layers name)) else v.reach rest

variable {lower upper : Fields} {layers : List Fields} {name : String}

def objectIn : Option Value → Fields
  | some (.obj members) => members
  | _ => []

/-- What a value comes to over what stands below it. -/
def laidOver (below : Option Value) : Value → Value
  | .obj members => .obj (overlay (objectIn below) members)
  | v => v

theorem get?_overlayMember_self (lower : Fields) (name : String) (v : Value) :
    Members.get? (overlayMember lower name v) name =
      if v.isNull then Members.get? lower name
      else some (laidOver (Members.get? lower name) v) := by
  cases v with
  | null => rfl
  | _ => exact Members.get?_put_self lower name _

theorem get?_overlay_laidOver (distinct : (Members.keys upper).Nodup) :
    Members.get? (overlay lower upper) name =
      match (Members.get? upper name).filter (!·.isNull) with
      | none => Members.get? lower name
      | some v => some (laidOver (Members.get? lower name) v) := by
  rw [get?_overlay distinct]
  cases Members.get? upper name with
  | none => rfl
  | some v =>
    dsimp only
    rw [get?_overlayMember_self]
    cases null : v.isNull <;> simp [Option.filter, null]

@[simp] theorem flatten_nil : flatten [] = [] := rfl

theorem flatten_concat (layers : List Fields) (upper : Fields) :
    flatten (layers ++ [upper]) = overlay (flatten layers) upper := by
  simp [flatten]

@[simp] theorem objectsAtop_nil : objectsAtop [] = [] := rfl

theorem objectsAtop_concat_obj (values : List Value) (members : Fields) :
    objectsAtop (values ++ [.obj members]) = objectsAtop values ++ [members] := by
  rw [objectsAtop, List.rtakeWhile_concat_pos _ _ _ rfl, List.map_append]
  rfl

theorem mem_of_mem_objectsAtop {values : List Value} {members : Fields}
    (member : members ∈ objectsAtop values) : .obj members ∈ values := by
  obtain ⟨v, inside, rfl⟩ := List.mem_map.1 member
  have object := List.mem_rtakeWhile_imp inside
  cases v with
  | obj members => exact (List.rtakeWhile_suffix _ _).mem inside
  | _ => cases object

theorem settled_concat (below : List Value) (v : Value) :
    settled (below ++ [v]) =
      some (if v.isObject then .obj (flatten (objectsAtop (below ++ [v]))) else v) := by
  rw [settled, List.getLast?_concat, Option.map_some]

theorem objectIn_settled (values : List Value) :
    objectIn (settled values) = flatten (objectsAtop values) := by
  rcases List.eq_nil_or_concat values with rfl | ⟨below, v, rfl⟩
  · rfl
  · rw [List.concat_eq_append, settled_concat]
    by_cases object : v.isObject = true
    · simp [object, objectIn]
    · have hidden : objectsAtop (below ++ [v]) = [] := by
        rw [objectsAtop, List.rtakeWhile_concat_neg _ _ _ object, List.map_nil]
      rw [hidden]
      cases v with
      | obj => exact absurd rfl object
      | _ => rfl

theorem foldl_laidOver (values : List Value) :
    values.foldl (fun below v => some (laidOver below v)) none = settled values := by
  induction values using List.reverseRecOn with
  | nil => rfl
  | append_singleton below v ih =>
    rw [List.foldl_append, ih, settled_concat]
    cases v with
    | obj members =>
      rw [objectsAtop_concat_obj, flatten_concat, ← objectIn_settled]
      rfl
    | _ => rfl

theorem get?_flatten (distinct : ∀ layer ∈ layers, (Members.keys layer).Nodup) :
    Members.get? (flatten layers) name = settled (said layers name) := by
  rw [← foldl_laidOver]
  have from_below : ∀ lower : Fields, Members.get? (layers.foldl overlay lower) name =
      (said layers name).foldl (fun below v => some (laidOver below v))
        (Members.get? lower name) := by
    induction layers with
    | nil => exact fun _ => rfl
    | cons layer rest ih =>
      intro lower
      obtain ⟨here, later⟩ := List.forall_mem_cons.1 distinct
      rw [List.foldl_cons, ih later, get?_overlay_laidOver here, said, said, List.filterMap_cons]
      cases (Members.get? layer name).filter (!·.isNull) <;> rfl
  exact from_below []

theorem not_isNull_of_mem_said {v : Value} (member : v ∈ said layers name) : v.isNull = false := by
  obtain ⟨layer, -, given⟩ := List.mem_filterMap.1 member
  simpa using (Option.filter_eq_some_iff.1 given).2

theorem isPlain_of_mem_said (plain : ∀ layer ∈ layers, (Value.obj layer).isPlain = true) {v : Value}
    (member : v ∈ said layers name) : v.isPlain = true := by
  obtain ⟨layer, inside, given⟩ := List.mem_filterMap.1 member
  exact Value.isPlain_of_get? (plain layer inside) (Option.filter_eq_some_iff.1 given).1

theorem isPlain_objectsAtop (plain : ∀ layer ∈ layers, (Value.obj layer).isPlain = true) :
    ∀ members ∈ objectsAtop (said layers name), (Value.obj members).isPlain = true :=
  fun _ member => isPlain_of_mem_said plain (mem_of_mem_objectsAtop member)

theorem reach_flatten (path : List String)
    (plain : ∀ layer ∈ layers, (Value.obj layer).isPlain = true) :
    (Value.obj (flatten layers)).reach path = decided path layers := by
  induction path generalizing layers with
  | nil => rfl
  | cons name rest ih =>
    have here : Members.get? (flatten layers) name = settled (said layers name) :=
      get?_flatten fun layer inside => Value.nodup_of_isPlain (plain layer inside)
    rw [Value.reach, decided, here, settled]
    cases (said layers name).getLast? with
    | none => rfl
    | some v =>
      by_cases object : v.isObject = true
      · simpa [object] using ih (isPlain_objectsAtop plain)
      · simp [object]

theorem decided_ne_null (path : List String) (layers : List Fields) :
    decided path layers ≠ some .null := by
  induction path generalizing layers with
  | nil => rintro ⟨⟩
  | cons name rest ih =>
    rw [decided]
    cases last : (said layers name).getLast? with
    | none => rintro ⟨⟩
    | some v =>
      have given := not_isNull_of_mem_said (List.mem_of_getLast? last)
      by_cases object : v.isObject = true
      · simpa [object] using ih _
      · rw [Option.bind_some, if_neg object]
        cases rest with
        | nil =>
          rintro ⟨⟩
          cases given
        | cons name rest =>
          rw [Value.reach_of_not_isObject (by simpa using object)]
          rintro ⟨⟩

theorem isPlain_fields {v : Value} (plain : v.isPlain = true) :
    (Value.obj v.fields).isPlain = true := by
  cases v with
  | obj => exact plain
  | _ => rfl

theorem flattenLayers_rtakeWhile (values : List Value) :
    flattenLayers (values.rtakeWhile Value.isObject) = .ok (flatten (objectsAtop values)) := by
  refine flattenLayers_eq_ok.2 ⟨fun v member => ?_, rfl⟩
  rw [Value.isLayer, List.mem_rtakeWhile_imp member, Bool.or_true]

/-- Under a name stands what the last value that is given for it says. If that is an object, it
comes to what the longest run of objects at the end of the given values comes to as layers. So a
value at a path depends on the highest layers only, and no null is met on the way. -/
theorem flattenLayers_decides (layers : List Value)
    (plain : ∀ layer ∈ layers, layer.isLayer = true ∧ layer.isPlain = true) :
    ∃ merged, flattenLayers layers = .ok merged ∧
      (∀ name, Members.has merged name = true ↔ said (layers.map Value.fields) name ≠ []) ∧
      (∀ name v, (said (layers.map Value.fields) name).getLast? = some v →
        (v.isObject = false → Members.get? merged name = some v) ∧
        (v.isObject = true → ∃ inner,
          flattenLayers ((said (layers.map Value.fields) name).rtakeWhile Value.isObject) =
            .ok inner ∧ Members.get? merged name = some (.obj inner))) ∧
      (∀ path, (Value.obj merged).reach path = decided path (layers.map Value.fields)) ∧
      ∀ path, (Value.obj merged).reach path ≠ some .null := by
  have whole : flattenLayers layers = .ok (flatten (layers.map Value.fields)) :=
    flattenLayers_eq_ok.2 ⟨fun layer member => (plain layer member).1, rfl⟩
  have fields : ∀ layer ∈ layers.map Value.fields, (Value.obj layer).isPlain = true :=
    List.forall_mem_map.2 fun layer member => isPlain_fields (plain layer member).2
  have each (name : String) : Members.get? (flatten (layers.map Value.fields)) name = _ :=
    get?_flatten fun layer member => Value.nodup_of_isPlain (fields layer member)
  have paths (path : List String) := reach_flatten path fields
  refine ⟨_, whole, fun name => ?_, fun name v last => ⟨fun leaf => ?_, fun object => ?_⟩, paths,
    fun path => ?_⟩
  · rw [Members.has, each, settled, Option.isSome_map, List.getLast?_isSome]
  · simp [each, settled, last, leaf]
  · exact ⟨_, flattenLayers_rtakeWhile _, by simp [each, settled, last, object]⟩
  · rw [paths]
    exact decided_ne_null path _

def turns : List Value :=
  [.obj [("a", .obj [("x", .int 1), ("y", .int 2)]), ("b", .obj [("p", .int 1)]), ("n", .int 5)],
    .null,
    .obj [("a", .int 7), ("b", .null), ("l", .arr [.null, .obj [("k", .null)]])],
    .obj [("a", .obj [("x", .null), ("z", .obj [("w", .null), ("v", .int 0)])]), ("n", .null),
      ("b", .obj [("q", .obj [])])],
    .obj [("a", .obj [("z", .obj [("u", .str "s")])])]]

theorem turns_decided :
    (∀ layer ∈ turns, layer.isLayer = true ∧ layer.isPlain = true) ∧
    ∃ merged, flattenLayers turns = .ok merged ∧
      (Value.obj merged).reach ["a"] =
        some (.obj [("z", .obj [("v", .int 0), ("u", .str "s")])]) ∧
      (Value.obj merged).reach ["b"] = some (.obj [("p", .int 1), ("q", .obj [])]) ∧
      Members.get? merged "l" = some (.arr [.null, .obj [("k", .null)]]) := by
  have plain : ∀ layer ∈ turns, layer.isLayer = true ∧ layer.isPlain = true := by decide
  obtain ⟨merged, whole, -, values, paths, -⟩ := flattenLayers_decides turns plain
  refine ⟨plain, merged, whole, ?_, ?_, (values "l" _ rfl).1 rfl⟩
  · rw [paths]
    rfl
  · rw [paths]
    rfl

end Config

end Harvest
