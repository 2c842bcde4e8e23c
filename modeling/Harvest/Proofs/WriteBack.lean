import Harvest.Proofs.Respelled

namespace Harvest

namespace Config

open Checked (Agree)

variable {α : Type} {R : String → Value → Value → Prop} {name : String} {v w : Value}

theorem alikeAtop_given {kind : Kind} (refl : ∀ name v, R name v v)
    (single : kind.memberKind? name = none) (plain : v.isPlain = true) (same : w = v) :
    AlikeAtop R name v (kind.cut name w.given) := by
  rw [same, Value.given_of_isPlain v plain, Kind.cut, single]
  exact alikeAtop_refl refl

theorem Checked.ofList_eq_ok {n : Nat} {items : List (Checked α)} {results : List α} :
    ofList n items = .ok results ↔ List.Forall₂ (fun a x => a = .ok x) items results := by
  induction items generalizing n results with
  | nil => cases results <;> simp [ofList]
  | cons a rest ih =>
    constructor
    · intro h
      obtain ⟨_, others, first, tail, rfl⟩ := seq_eq_ok.1 h
      obtain ⟨x, head, rfl⟩ := map_eq_ok.1 first
      exact .cons (under_eq_ok.1 head) (ih.1 tail)
    · intro all
      cases all with
      | cons head tail =>
        exact seq_eq_ok.2 ⟨_, _, map_eq_ok.2 ⟨_, under_eq_ok.2 head, rfl⟩, ih.2 tail, rfl⟩

theorem Given.object_of_readClosed {kind : Kind} {build : Fields → Checked α} {g : Given α}
    (plain : v.isPlain = true) (read : readClosed kind build v = .ok g) :
    ∃ members, v = .obj members := by
  cases v with
  | obj members => exact ⟨members, rfl⟩
  | record => cases plain
  | _ => cases read

namespace Field

theorem orNull_eq_ok {read : Value → Checked α} {o : Option α} (h : orNull read v = .ok o) :
    (v = .null ∧ o = none) ∨ ∃ a, read v = .ok a ∧ o = some a := by
  by_cases null : v = .null
  · subst null
    cases h
    exact .inl ⟨rfl, rfl⟩
  · rw [orNull] at h
    · obtain ⟨a, accepted, rfl⟩ := Checked.map_eq_ok.1 h
      exact .inr ⟨a, accepted, rfl⟩
    · exact null

theorem written_orNull {read : Value → Checked α} {write : α → Value} {o : Option α}
    (each : ∀ a, read v = .ok a → write a = v) (h : orNull read v = .ok o) :
    Value.ofOption write o = v := by
  rcases orNull_eq_ok h with ⟨rfl, rfl⟩ | ⟨a, accepted, rfl⟩
  · rfl
  · exact each a accepted

theorem written_object {members : Fields} (h : object v = .ok members) : .obj members = v := by
  cases v <;> cases h
  rfl

theorem written_text {s : String} (h : text v = .ok s) : .str s = v := by
  cases v <;> cases h
  rfl

theorem written_name {s : String} (h : Field.name v = .ok s) : .str s = v := by
  cases v with
  | str t => rw [name_eq_ok h]
  | _ => cases h

theorem written_hook {handle : Hook} (h : hook v = .ok handle) : .hook handle = v := by
  cases v <;> cases h
  rfl

theorem written_textList {texts : List String} (plain : v.isPlain = true)
    (h : textList v = .ok texts) : .strings texts = v := by
  cases v with
  | arr items =>
    have each := Checked.ofList_eq_ok.1 h
    rw [List.forall₂_map_left_iff] at each
    have same : texts.map Value.str = items := by
      clear plain h
      induction each with
      | nil => rfl
      | cons head _ ih => rw [List.map_cons, written_text head, ih]
    rw [Value.strings, same]
  | record => cases plain
  | _ => cases h

theorem textList_strings (texts : List String) : textList (.strings texts) = .ok texts := by
  refine Checked.ofList_eq_ok.2 ?_
  rw [List.forall₂_map_left_iff, List.forall₂_map_left_iff, List.forall₂_same]
  exact fun _ _ => rfl

theorem orNull_strings (texts : Option (List String)) :
    orNull textList (.ofOption .strings texts) = .ok texts := by
  cases texts with
  | none => rfl
  | some texts => exact congrArg (Checked.map some) (textList_strings texts)

theorem isLeaf_of_flag {b : Bool} (h : flag v = .ok b) : v.isLeaf = true := by
  cases v with
  | null | obj => cases h
  | _ => rfl

theorem method_ofMethod (m : Method) : method (.ofMethod m) = .ok m := by
  rw [Value.ofMethod, method, Method.ofName?_name]

theorem isLeaf_of_method {m : Method} (h : method v = .ok m) : v.isLeaf = true := by
  cases v with
  | str => rfl
  | _ => cases h

end Field

end Config

namespace Endpoint

open Config

def Respelled (name : String) (v w : Value) : Prop :=
  match name with
  | "omit_body" => (Field.orNull Field.flag v).Agree (Field.orNull Field.flag w)
  | "readonly" => (Field.flag v).Agree (Field.flag w)
  | "method" => (Field.method v).Agree (Field.method w)
  | _ => v = w

theorem Respelled.refl (name : String) (v : Value) : Respelled name v v := by
  unfold Respelled
  split
  · exact .refl _
  · exact .refl _
  · exact .refl _
  · rfl

theorem Settings.agree_build {a b : Fields} (alike : Alike Respelled a b) :
    (Settings.build a).Agree (Settings.build b) :=
  .seq (.seq (.seq (.seq (.map _ (Field.agree_optional Field.agree_of_eq (alike "query_args")))
    (Field.agree_optional Field.agree_of_eq (alike "headers")))
    (Field.agree_optional Field.agree_of_eq (alike "body")))
    (Field.agree_optional (fun _ _ same => same) (alike "omit_body")))
    (Field.agree_optional Field.agree_of_eq (alike "pagination"))

theorem Settings.written {kind : Kind} (single : ∀ name, kind.memberKind? name = none)
    {ms : Fields} (plain : (Value.obj ms).isPlain = true) {s : Settings}
    (built : build ms = .ok s) (behind : Fields) {name : String} {v : Value}
    (member : name ∈ Kind.endpointSettings.memberNames) (found : Members.get? ms name = some v) :
    ∃ w, Members.get? (s.members ++ behind) name = some w ∧
      AlikeAtop Respelled name v (kind.cut name w.given) := by
  obtain ⟨queryArgs, headers, body, omitBody, pagination⟩ := Settings.fields_of_build built
  have own := Value.isPlain_of_get? plain found
  simp only [Kind.memberNames, Kind.memberNames.settings, List.mem_cons, List.not_mem_nil,
    or_false] at member
  rcases member with rfl | rfl | rfl | rfl | rfl
  · rw [Field.optional_eq_ok found] at queryArgs
    exact ⟨_, rfl, alikeAtop_given Respelled.refl (single _) own
      (Field.written_orNull (fun _ => Field.written_object) queryArgs)⟩
  · rw [Field.optional_eq_ok found] at headers
    exact ⟨_, rfl, alikeAtop_given Respelled.refl (single _) own
      (Field.written_orNull (fun _ => Field.written_object) headers)⟩
  · rw [Field.optional_eq_ok found] at body
    exact ⟨_, rfl, alikeAtop_given Respelled.refl (single _) own (Checked.ok.inj body).symm⟩
  · rw [Field.optional_eq_ok found] at omitBody
    refine ⟨_, rfl, ?_⟩
    rcases Field.orNull_eq_ok omitBody with ⟨rfl, absent⟩ | ⟨b, accepted, given⟩
    · exact alikeAtop_given Respelled.refl (single _) rfl (by rw [absent]; rfl)
    · rw [given, Kind.cut, single]
      refine alikeAtop_leaf (Field.isLeaf_of_flag accepted) rfl ?_
      exact Checked.agree_of_ok (given ▸ omitBody) rfl
  · rw [Field.optional_eq_ok found] at pagination
    exact ⟨_, rfl, alikeAtop_given Respelled.refl (single _) own
      (Field.written_orNull (fun _ => Field.written_text) pagination)⟩

theorem Entry.agree_build {a b : Fields} (alike : Alike Respelled a b) :
    (Entry.build a).Agree (Entry.build b) :=
  .seq (.map _ (Settings.agree_build alike))
    (Field.agree_optional (fun _ _ same => same) (alike "readonly"))

theorem Entry.writes : Writes .endpointEntry Entry.build Entry.members Respelled where
  distinct := by decide
  refl := Respelled.refl
  reads _ _ := Entry.agree_build
  names _ := rfl
  written ms e plain built name member v found := by
    obtain ⟨_, readonly, first, readonlyRead, rfl⟩ := Checked.seq_eq_ok.1 built
    obtain ⟨_, settings, rfl⟩ := Checked.map_eq_ok.1 first
    rcases List.mem_append.1 member with shared | own
    · exact Settings.written (fun _ => rfl) plain settings _ shared found
    · obtain rfl := List.mem_singleton.1 own
      rw [Field.optional_eq_ok found] at readonlyRead
      refine ⟨_, rfl, alikeAtop_leaf (Field.isLeaf_of_flag readonlyRead) rfl ?_⟩
      exact Checked.agree_of_ok readonlyRead rfl

theorem Target.agree_build {a b : Fields} (alike : Alike Respelled a b) :
    (Target.build a).Agree (Target.build b) :=
  .seq (.seq (.seq (.map _ (Settings.agree_build alike))
    (Field.agree_required Field.agree_of_eq (alike "path")))
    (Field.agree_optional (fun _ _ same => same) (alike "method")))
    (Field.agree_optional Field.agree_of_eq (alike "client"))

theorem Target.writes : Writes .endpointTarget Target.build Target.members Respelled where
  distinct := by decide
  refl := Respelled.refl
  reads _ _ := Target.agree_build
  names _ := rfl
  written ms t plain built name member v found := by
    obtain ⟨settings, path, method, client⟩ := Target.build_eq_ok built
    rcases List.mem_append.1 member with shared | own
    · exact Settings.written (fun _ => rfl) plain settings _ shared found
    have given := Value.isPlain_of_get? plain found
    simp only [List.mem_cons, List.not_mem_nil, or_false] at own
    rcases own with rfl | rfl | rfl
    · rw [Field.required_eq_ok found] at path
      exact ⟨_, rfl, alikeAtop_given Respelled.refl rfl given (Field.written_name path)⟩
    · rw [Field.optional_eq_ok found] at method
      refine ⟨_, rfl, alikeAtop_leaf (Field.isLeaf_of_method method) rfl ?_⟩
      exact Checked.agree_of_ok method (Field.method_ofMethod t.method)
    · rw [Field.optional_eq_ok found] at client
      exact ⟨_, rfl, alikeAtop_given Respelled.refl rfl given
        (Field.written_orNull (fun _ => Field.written_text) client)⟩

theorem Target.build_members {t : Target} (nonempty : t.path ≠ "") : build t.members = .ok t := by
  have queryArgs : Field.optional t.members "query_args" none (Field.orNull Field.object) =
      .ok t.queryArgs := (Field.optional_eq_ok rfl).2 (by cases t.queryArgs <;> rfl)
  have headers : Field.optional t.members "headers" none (Field.orNull Field.object) =
      .ok t.headers := (Field.optional_eq_ok rfl).2 (by cases t.headers <;> rfl)
  have body : Field.optional t.members "body" .null Field.any = .ok t.body :=
    (Field.optional_eq_ok rfl).2 rfl
  have omitBody : Field.optional t.members "omit_body" none (Field.orNull Field.flag) =
      .ok t.omitBody := (Field.optional_eq_ok rfl).2 (by cases t.omitBody <;> rfl)
  have pagination : Field.optional t.members "pagination" none (Field.orNull Field.text) =
      .ok t.pagination :=
    (Field.optional_eq_ok rfl).2 (by cases t.pagination <;> rfl)
  have path : Field.required t.members "path" Field.name = .ok t.path :=
    (Field.required_eq_ok rfl).2 (by simp [Field.name, nonempty])
  have method : Field.optional t.members "method" .get Field.method = .ok t.method :=
    (Field.optional_eq_ok rfl).2 (Field.method_ofMethod t.method)
  have client : Field.optional t.members "client" none (Field.orNull Field.text) = .ok t.client :=
    (Field.optional_eq_ok rfl).2 (by cases t.client <;> rfl)
  rw [build, Settings.build, queryArgs, headers, body, omitBody, pagination, path, method, client]
  rfl

end Endpoint

namespace Transformation

open Config

def Respelled (name : String) (v w : Value) : Prop :=
  match name with
  | "single" => (Field.flag v).Agree (Field.flag w)
  | _ => v = w

theorem Respelled.refl (name : String) (v : Value) : Respelled name v v := by
  unfold Respelled
  split
  · exact .refl _
  · rfl

theorem fields_of_build {ms : Fields} {t : Transformation} (h : build ms = .ok t) :
    Field.optional ms "root" none (Field.orNull Field.text) = .ok t.root ∧
      Field.optional ms "single" false Field.flag = .ok t.single ∧
      Field.optional ms "pick" none (Field.orNull Field.textList) = .ok t.keep ∧
      Field.optional ms "omit" none (Field.orNull Field.textList) = .ok t.drop ∧
      Field.optional ms "nest_under_field" none (Field.orNull Field.text) = .ok t.nestUnder ∧
      Field.optional ms "adjust" none (Field.orNull Field.hook) = .ok t.adjust := by
  unfold build at h
  obtain ⟨_, adjust, upToNest, adjustRead, rfl⟩ := Checked.seq_eq_ok.1 h
  obtain ⟨_, nestUnder, upToDrop, nestRead, rfl⟩ := Checked.seq_eq_ok.1 upToNest
  obtain ⟨_, drop, upToKeep, dropRead, rfl⟩ := Checked.seq_eq_ok.1 upToDrop
  obtain ⟨_, keep, upToSingle, keepRead, rfl⟩ := Checked.seq_eq_ok.1 upToKeep
  obtain ⟨_, single, first, singleRead, rfl⟩ := Checked.seq_eq_ok.1 upToSingle
  obtain ⟨root, rootRead, rfl⟩ := Checked.map_eq_ok.1 first
  exact ⟨rootRead, singleRead, keepRead, dropRead, nestRead, adjustRead⟩

theorem agree_build {a b : Fields} (alike : Alike Respelled a b) : (build a).Agree (build b) :=
  .seq (.seq (.seq (.seq (.seq (.map _ (Field.agree_optional Field.agree_of_eq (alike "root")))
    (Field.agree_optional (fun _ _ same => same) (alike "single")))
    (Field.agree_optional Field.agree_of_eq (alike "pick")))
    (Field.agree_optional Field.agree_of_eq (alike "omit")))
    (Field.agree_optional Field.agree_of_eq (alike "nest_under_field")))
    (Field.agree_optional Field.agree_of_eq (alike "adjust"))

theorem writes : Writes .transformation build members Respelled where
  distinct := by decide
  refl := Respelled.refl
  reads _ _ := agree_build
  names _ := rfl
  written ms t plain built name member v found := by
    obtain ⟨root, single, keep, drop, nestUnder, adjust⟩ := fields_of_build built
    have own := Value.isPlain_of_get? plain found
    simp only [Kind.memberNames, List.mem_cons, List.not_mem_nil, or_false] at member
    rcases member with rfl | rfl | rfl | rfl | rfl | rfl
    · rw [Field.optional_eq_ok found] at root
      exact ⟨_, rfl, alikeAtop_given Respelled.refl rfl own
        (Field.written_orNull (fun _ => Field.written_text) root)⟩
    · rw [Field.optional_eq_ok found] at single
      refine ⟨_, rfl, alikeAtop_leaf (Field.isLeaf_of_flag single) rfl ?_⟩
      exact Checked.agree_of_ok single rfl
    · rw [Field.optional_eq_ok found] at keep
      exact ⟨_, rfl, alikeAtop_given Respelled.refl rfl own
        (Field.written_orNull (fun _ => Field.written_textList own) keep)⟩
    · rw [Field.optional_eq_ok found] at drop
      exact ⟨_, rfl, alikeAtop_given Respelled.refl rfl own
        (Field.written_orNull (fun _ => Field.written_textList own) drop)⟩
    · rw [Field.optional_eq_ok found] at nestUnder
      exact ⟨_, rfl, alikeAtop_given Respelled.refl rfl own
        (Field.written_orNull (fun _ => Field.written_text) nestUnder)⟩
    · rw [Field.optional_eq_ok found] at adjust
      exact ⟨_, rfl, alikeAtop_given Respelled.refl rfl own
        (Field.written_orNull (fun _ => Field.written_hook) adjust)⟩

theorem build_members (t : Transformation) : build t.members = .ok t := by
  have root : Field.optional t.members "root" none (Field.orNull Field.text) = .ok t.root :=
    (Field.optional_eq_ok rfl).2 (by cases t.root <;> rfl)
  have single : Field.optional t.members "single" false Field.flag = .ok t.single :=
    (Field.optional_eq_ok rfl).2 rfl
  have keep : Field.optional t.members "pick" none (Field.orNull Field.textList) = .ok t.keep :=
    (Field.optional_eq_ok rfl).2 (Field.orNull_strings _)
  have drop : Field.optional t.members "omit" none (Field.orNull Field.textList) = .ok t.drop :=
    (Field.optional_eq_ok rfl).2 (Field.orNull_strings _)
  have nestUnder : Field.optional t.members "nest_under_field" none (Field.orNull Field.text) =
      .ok t.nestUnder := (Field.optional_eq_ok rfl).2 (by cases t.nestUnder <;> rfl)
  have adjust : Field.optional t.members "adjust" none (Field.orNull Field.hook) = .ok t.adjust :=
    (Field.optional_eq_ok rfl).2 (by cases t.adjust <;> rfl)
  rw [build, root, single, keep, drop, nestUnder, adjust]
  rfl

end Transformation

namespace Request

open Config

def Respelled (name : String) (v w : Value) : Prop :=
  match name with
  | "endpoint" => (Endpoint.Target.read v).Agree (Endpoint.Target.read w)
  | "transformation" => (Transformation.read v).Agree (Transformation.read w)
  | _ => v = w

theorem Respelled.refl (name : String) (v : Value) : Respelled name v v := by
  unfold Respelled
  split
  · exact .refl _
  · exact .refl _
  · rfl

theorem build_eq_ok {ms : Fields} {r : Request} : build ms = .ok r ↔
    Field.required ms "endpoint" Endpoint.Target.read = .ok r.target ∧
      Field.optional ms "transformation" Transformation.plain Transformation.read =
        .ok r.transformation ∧
      Field.optional ms "context" [] Field.object = .ok r.context := by
  constructor
  · intro h
    obtain ⟨_, context, upToTransformation, contextRead, rfl⟩ := Checked.seq_eq_ok.1 h
    obtain ⟨_, transformation, first, transformationRead, rfl⟩ :=
      Checked.seq_eq_ok.1 upToTransformation
    obtain ⟨target, targetRead, rfl⟩ := Checked.map_eq_ok.1 first
    exact ⟨targetRead, transformationRead, contextRead⟩
  · rintro ⟨target, transformation, context⟩
    rw [build, target, transformation, context]
    rfl

theorem agree_build {a b : Fields} (alike : Alike Respelled a b) : (build a).Agree (build b) :=
  .seq (.seq (.map _ (Field.agree_required (fun _ _ same => same) (alike "endpoint")))
    (Field.agree_optional (fun _ _ same => same) (alike "transformation")))
    (Field.agree_optional Field.agree_of_eq (alike "context"))

theorem writes : Writes .request build members Respelled where
  distinct := by decide
  refl := Respelled.refl
  reads _ _ := agree_build
  names _ := rfl
  written ms r plain built name member v found := by
    obtain ⟨target, transformation, context⟩ := build_eq_ok.1 built
    have own := Value.isPlain_of_get? plain found
    simp only [Kind.memberNames, List.mem_cons, List.not_mem_nil, or_false] at member
    rcases member with rfl | rfl | rfl
    · rw [Field.required_eq_ok found] at target
      obtain ⟨inner, rfl⟩ := Given.object_of_readClosed own target
      refine ⟨_, rfl, ?_⟩
      rw [Endpoint.Target.writes.cut_record target rfl]
      exact alikeAtop_obj (Endpoint.Target.writes.agree_given own target)
    · rw [Field.optional_eq_ok found] at transformation
      obtain ⟨inner, rfl⟩ := Given.object_of_readClosed own transformation
      refine ⟨_, rfl, ?_⟩
      rw [Transformation.writes.cut_record transformation rfl]
      exact alikeAtop_obj (Transformation.writes.agree_given own transformation)
    · rw [Field.optional_eq_ok found] at context
      exact ⟨_, rfl, alikeAtop_given Respelled.refl rfl own (Field.written_object context)⟩

end Request

end Harvest
