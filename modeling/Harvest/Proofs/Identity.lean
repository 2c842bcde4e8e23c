import Mathlib
import Harvest.Call
import Harvest.Proofs.Json.ReadBack
import Harvest.Proofs.Wording

namespace Harvest

namespace Value

/-- JSON data: there is no hook or record in it, and in every object each name stands once. -/
inductive IsData : Value → Prop
  | null : IsData null
  | bool (b : Bool) : IsData (bool b)
  | int (n : Int) : IsData (int n)
  | double (d : Decimal.Double) : IsData (double d)
  | str (s : String) : IsData (str s)
  | arr {items : List Value} (parts : ∀ v ∈ items, IsData v) : IsData (arr items)
  | obj {members : Fields} (distinct : (Members.keys members).Nodup)
      (parts : ∀ m ∈ members, IsData m.2) : IsData (obj members)

/-- Equality up to the order of members: lists are alike item by item, objects if they have the same
names with alike values under them, and all else is alike only to itself. -/
inductive Alike : Value → Value → Prop
  | null : Alike null null
  | bool (b : Bool) : Alike (bool b) (bool b)
  | int (n : Int) : Alike (int n) (int n)
  | double (d : Decimal.Double) : Alike (double d) (double d)
  | str (s : String) : Alike (str s) (str s)
  | arr {as bs : List Value} (length : as.length = bs.length)
      (items : ∀ (i : Nat) (a b : Value), as[i]? = some a → bs[i]? = some b → Alike a b) :
      Alike (arr as) (arr bs)
  | obj {as bs : Fields} (names : ∀ name, Members.has as name = Members.has bs name)
      (members : ∀ (name : String) (a b : Value), Members.get? as name = some a →
        Members.get? bs name = some b → Alike a b) :
      Alike (obj as) (obj bs)

theorem Alike.text_eq {s t : String} (alike : Alike (Value.str s) (Value.str t)) : s = t := by
  cases alike
  rfl

example (d : Decimal.Double) :
    ¬ Alike (int 1) (double d) ∧ ¬ Alike (int 1) (bool true) ∧ ¬ Alike (int 1) (str "1") ∧
      ¬ Alike (double d) (bool true) ∧ ¬ Alike (double d) (str "1") ∧
      ¬ Alike (bool true) (str "1") ∧ ¬ Alike (obj [("a", null)]) (obj []) := by
  refine ⟨nofun, nofun, nofun, nofun, nofun, nofun, ?_⟩
  rintro (_ | _ | _ | _ | _ | _ | ⟨names, -⟩)
  exact absurd (names "a") (by decide)

theorem areJson_of_forall {items : List Value} (parts : ∀ v ∈ items, v.isJson = true) :
    areJson items = true := by
  induction items with
  | nil => rfl
  | cons v rest ih =>
    rw [areJson, parts v (by simp), ih fun w member => parts w (.tail _ member)]
    rfl

theorem areJsonMembers_of_forall {members : Fields} (parts : ∀ m ∈ members, m.2.isJson = true) :
    areJsonMembers members = true := by
  induction members with
  | nil => rfl
  | cons m rest ih =>
    rw [areJsonMembers, parts m (by simp), ih fun w member => parts w (.tail _ member)]
    rfl

theorem IsData.isJson {v : Value} (data : IsData v) : v.isJson = true := by
  induction data with
  | null | bool | int | double | str => rfl
  | arr _ ih => exact areJson_of_forall ih
  | obj _ _ ih => exact areJsonMembers_of_forall ih

theorem mem_canonicalMembers {members : Fields} (distinct : (Members.keys members).Nodup)
    {name : String} {text : List Char} :
    (name, text) ∈ canonicalMembers members ↔
      ∃ v, Members.get? members name = some v ∧ entry (name, v) = text := by
  simp only [Members.get?_eq_some_iff distinct, canonicalMembers_eq_map, List.mem_map,
    Prod.mk.injEq]
  constructor
  · rintro ⟨⟨key, v⟩, member, rfl, rfl⟩
    exact ⟨v, member, rfl⟩
  · rintro ⟨v, member, rfl⟩
    exact ⟨(name, v), member, rfl, rfl⟩

theorem keys_canonicalMembers (members : Fields) :
    Members.keys (canonicalMembers members) = Members.keys members := by
  rw [canonicalMembers_eq_map, Members.keys, List.map_map]
  rfl

theorem canonicalMembers_subset {as bs : Fields} (first : (Members.keys as).Nodup)
    (second : (Members.keys bs).Nodup)
    (names : ∀ name, Members.has as name = true → Members.has bs name = true)
    (texts : ∀ (name : String) (a b : Value), Members.get? as name = some a →
      Members.get? bs name = some b → canonical a = canonical b) :
    ∀ m ∈ canonicalMembers as, m ∈ canonicalMembers bs := by
  rintro ⟨name, text⟩ member
  obtain ⟨a, here, rfl⟩ := (mem_canonicalMembers first).1 member
  obtain ⟨b, there⟩ := Option.isSome_iff_exists.1 (names name (by simp [Members.has, here]))
  refine (mem_canonicalMembers second).2 ⟨b, there, ?_⟩
  rw [entry, entry, texts name a b here there]

theorem canonicalMembers_perm {as bs : Fields} (first : (Members.keys as).Nodup)
    (second : (Members.keys bs).Nodup) (names : ∀ name, Members.has as name = Members.has bs name)
    (texts : ∀ (name : String) (a b : Value), Members.get? as name = some a →
      Members.get? bs name = some b → canonical a = canonical b) :
    (canonicalMembers as).Perm (canonicalMembers bs) := by
  have nodup {ms : Fields} (distinct : (Members.keys ms).Nodup) : (canonicalMembers ms).Nodup :=
    .of_map (·.1) (by rwa [← Members.keys, keys_canonicalMembers])
  rw [List.perm_ext_iff_of_nodup (nodup first) (nodup second)]
  refine fun m => ⟨
    canonicalMembers_subset first second (fun name => (names name).symm.trans) texts m,
    canonicalMembers_subset second first (fun name => (names name).trans) ?_ m⟩
  exact fun name b a there here => (texts name a b here there).symm

theorem canonical_eq_of_alike {v w : Value} (alike : Alike v w) (left : IsData v)
    (right : IsData w) : canonical v = canonical w := by
  induction alike with
  | null | bool | int | double | str => rfl
  | @arr as bs length items ih =>
    obtain _ | _ | _ | _ | _ | lefts | _ := left
    obtain _ | _ | _ | _ | _ | rights | _ := right
    have texts : as.map canonical = bs.map canonical := by
      refine List.ext_getElem (by simpa using length) fun i below above => ?_
      simp only [List.length_map] at below above
      simp only [List.getElem_map]
      exact ih i _ _ (List.getElem?_eq_getElem below) (List.getElem?_eq_getElem above)
        (lefts _ (List.getElem_mem below)) (rights _ (List.getElem_mem above))
    rw [canonical_arr, canonical_arr, texts]
  | @obj as bs names members ih =>
    obtain _ | _ | _ | _ | _ | _ | ⟨first, lefts⟩ := left
    obtain _ | _ | _ | _ | _ | _ | ⟨second, rights⟩ := right
    have same := canonicalMembers_perm first second names fun name a b here there =>
      ih name a b here there (lefts _ (Members.mem_of_get? here))
        (rights _ (Members.mem_of_get? there))
    have distinct : (Members.keys (canonicalMembers as)).Nodup := by
      rwa [keys_canonicalMembers]
    rw [canonical, canonical, sortByName_eq_of_perm same distinct]

theorem alike_of_ordered_eq {v w : Value} (left : IsData v) (right : IsData w)
    (same : ordered v = ordered w) : Alike v w := by
  induction left generalizing w with
  | null => cases right <;> simp_all [ordered, Alike.null]
  | bool b => cases right <;> simp_all [ordered, Alike.bool]
  | int n => cases right <;> simp_all [ordered, Alike.int]
  | double d => cases right <;> simp_all [ordered, Alike.double]
  | str s => cases right <;> simp_all [ordered, Alike.str]
  | @arr as lefts ih =>
    cases right with
    | @arr bs rights =>
      rw [ordered_arr, ordered_arr, Value.arr.injEq] at same
      have length : as.length = bs.length := by simpa using congrArg List.length same
      refine .arr length fun i a b here there => ?_
      have item : (as.map ordered)[i]? = (bs.map ordered)[i]? := by rw [same]
      rw [List.getElem?_map, List.getElem?_map, here, there] at item
      exact ih a (List.mem_of_getElem? here) (rights b (List.mem_of_getElem? there))
        (Option.some.inj item)
    | _ => simp [ordered] at same
  | @obj as distinct lefts ih =>
    cases right with
    | @obj bs distinct' rights =>
      rw [ordered_obj, ordered_obj, Value.obj.injEq] at same
      have found (name : String) : (Members.get? as name).map ordered =
          (Members.get? bs name).map ordered := by
        rw [← get?_ordered, ← get?_ordered, same]
      refine .obj (fun name => ?_) fun name a b here there => ?_
      · simpa [Members.has] using congrArg Option.isSome (found name)
      · have value := found name
        rw [here, there] at value
        exact ih (name, a) (Members.mem_of_get? here)
          (rights (name, b) (Members.mem_of_get? there)) (Option.some.inj value)
    | _ => simp [ordered] at same

/-- JSON data are equal up to order exactly when they have one text. -/
theorem alike_iff_canonical_eq {v w : Value} (left : IsData v) (right : IsData w) :
    Alike v w ↔ canonical v = canonical w :=
  ⟨fun alike => canonical_eq_of_alike alike left right,
    fun same => alike_of_ordered_eq left right (ordered_eq_of_canonical_eq same)⟩

theorem areWritable_eq_all (items : List Value) : areWritable items = items.all isWritable := by
  induction items with
  | nil => rfl
  | cons v rest ih => rw [areWritable, ih, List.all_cons]

theorem areWritableMembers_eq_all (members : Fields) :
    areWritableMembers members = members.all fun m => isWritable m.2 := by
  induction members with
  | nil => rfl
  | cons m rest ih => rw [areWritableMembers, ih, List.all_cons]

/-- There is an integer of more digits than can be written in the value. -/
inductive Overlong : Value → Prop
  | int {n : Int} (long : 10 ^ Text.digitLimit ≤ n.natAbs) : Overlong (int n)
  | arr {items : List Value} {v : Value} (member : v ∈ items) (long : Overlong v) :
      Overlong (arr items)
  | obj {members : Fields} {m : String × Value} (member : m ∈ members) (long : Overlong m.2) :
      Overlong (obj members)
  | record {kind : Kind} {members : Fields} {given : List String} {m : String × Value}
      (member : m ∈ members) (long : Overlong m.2) : Overlong (record kind members given)

theorem isWritable_eq_true_iff {v : Value} : v.isWritable = true ↔ ¬ v.Overlong := by
  have objects (members : Fields) (parts : ∀ m ∈ members, m.2.isWritable = true ↔ ¬ m.2.Overlong) :
      areWritableMembers members = true ↔ ∀ m ∈ members, ¬ m.2.Overlong := by
    rw [areWritableMembers_eq_all, List.all_eq_true]
    exact forall₂_congr parts
  induction v using parts_induction with
  | null | bool b | double d | str s | hook h => exact iff_of_true rfl nofun
  | int n =>
    rw [isWritable_int_iff, ← Nat.not_le]
    exact not_congr ⟨.int, fun | .int long => long⟩
  | arr items parts =>
    rw [isWritable, areWritable_eq_all, List.all_eq_true]
    refine (forall₂_congr parts).trans ⟨?_, fun short v member long => short (.arr member long)⟩
    rintro each (_ | ⟨member, long⟩)
    exact each _ member long
  | obj members parts =>
    rw [isWritable, objects members parts]
    refine ⟨?_, fun short m member long => short (.obj member long)⟩
    rintro each (_ | _ | ⟨member, long⟩)
    exact each _ member long
  | record kind members given parts =>
    rw [isWritable, objects members parts]
    refine ⟨?_, fun short m member long => short (.record member long)⟩
    rintro each (_ | _ | _ | ⟨member, long⟩)
    exact each _ member long

theorem overlong_unwritten : unwritten.Overlong := by
  by_contra short
  have written := isWritable_eq_true_iff.2 short
  rw [isWritable_unwritten] at written
  cases written

theorem isWritable_ordered (v : Value) : isWritable (ordered v) = isWritable v := by
  have objects (members : Fields)
      (parts : ∀ m ∈ members, isWritable (ordered m.2) = isWritable m.2) :
      isWritable (ordered (obj members)) = isWritable (obj members) := by
    rw [ordered_obj, isWritable, isWritable, areWritableMembers_eq_all, areWritableMembers_eq_all,
      List.all_map, (sortByName_perm members).all_eq, Bool.eq_iff_iff, List.all_eq_true,
      List.all_eq_true]
    exact forall₂_congr fun m member => by rw [Function.comp_apply, parts m member]
  induction v using parts_induction with
  | null | bool b | int n | double d | str s | hook h => rfl
  | arr items parts =>
    rw [ordered_arr, isWritable, isWritable, areWritable_eq_all, areWritable_eq_all, List.all_map,
      Bool.eq_iff_iff, List.all_eq_true, List.all_eq_true]
    exact forall₂_congr fun v member => by rw [Function.comp_apply, parts v member]
  | obj members parts | record kind members given parts => exact objects members parts

end Value

namespace Call

/-- The call is made of JSON data. -/
structure IsData (c : Call) : Prop where
  queryArgs : (Value.obj c.queryArgs).IsData
  headers : (Value.obj c.headers).IsData
  body : c.body.IsData

/-- The same path and method, and data that are equal up to the order of members. -/
structure Alike (a b : Call) : Prop where
  path : a.path = b.path
  method : a.method = b.method
  queryArgs : (Value.obj a.queryArgs).Alike (.obj b.queryArgs)
  headers : (Value.obj a.headers).Alike (.obj b.headers)
  body : a.body.Alike b.body

variable {a b c : Call}

theorem IsData.members (data : c.IsData) : (Value.obj c.members).IsData := by
  have distinct : ["path", "method", "query_args", "headers", "body"].Nodup := by decide
  refine .obj distinct fun m member => ?_
  simp only [Call.members, List.mem_cons, List.not_mem_nil, or_false] at member
  rcases member with rfl | rfl | rfl | rfl | rfl
  · exact .str _
  · exact .str _
  · exact data.queryArgs
  · exact data.headers
  · exact data.body

theorem IsData.data_eq (data : c.IsData) : c.data = .obj c.members :=
  Value.full_of_isJson _ data.members.isJson

theorem get?_members (c : Call) (name : String) :
    Members.get? c.members name =
      if "path" = name then some (.str c.path)
      else if "method" = name then some (.ofMethod c.method)
      else if "query_args" = name then some (.obj c.queryArgs)
      else if "headers" = name then some (.obj c.headers)
      else if "body" = name then some c.body
      else none :=
  rfl

theorem method_eq_of_alike {m n : Method} (alike : (Value.ofMethod m).Alike (.ofMethod n)) :
    m = n := by
  have names : m.name = n.name := Value.Alike.text_eq alike
  have read := congrArg Method.ofName? names
  rw [Method.ofName?_name, Method.ofName?_name] at read
  exact Option.some.inj read

theorem alike_iff_members : a.Alike b ↔ (Value.obj a.members).Alike (.obj b.members) := by
  constructor
  · rintro ⟨path, method, queryArgs, headers, body⟩
    refine .obj (fun name => ?_) fun name v w here there => ?_
    · simp only [Members.has, get?_members]
      split_ifs <;> rfl
    · rw [get?_members] at here there
      split_ifs at here there <;> cases here <;> cases there
      · rw [path]
        exact .str _
      · rw [method]
        exact .str _
      · exact queryArgs
      · exact headers
      · exact body
  · rintro (_ | _ | _ | _ | _ | _ | ⟨-, under⟩)
    exact ⟨(under "path" _ _ rfl rfl).text_eq, method_eq_of_alike (under "method" _ _ rfl rfl),
      under "query_args" _ _ rfl rfl, under "headers" _ _ rfl rfl, under "body" _ _ rfl rfl⟩

theorem fingerprint_eq_iff_canonical_eq :
    a.fingerprint = b.fingerprint ↔ a.data.canonical = b.data.canonical :=
  String.ofList_inj

theorem isWritable_iff_not_overlong : c.isWritable = true ↔ ¬ c.data.Overlong :=
  Value.isWritable_eq_true_iff

theorem identify_of_overlong (long : c.data.Overlong) : c.identify = .error .unreadable := by
  rw [identify, if_neg fun written => isWritable_iff_not_overlong.1 written long]

theorem identify_of_not_overlong (short : ¬ c.data.Overlong) : c.identify = .ok c.fingerprint := by
  rw [identify, if_pos (isWritable_iff_not_overlong.2 short)]

theorem isWritable_eq_of_fingerprint_eq (same : a.fingerprint = b.fingerprint) :
    a.isWritable = b.isWritable := by
  have ordered := Value.ordered_eq_of_canonical_eq (fingerprint_eq_iff_canonical_eq.1 same)
  rw [isWritable, isWritable, ← Value.isWritable_ordered, ordered, Value.isWritable_ordered]

/-- The fingerprint of a call is its identity. A call made of JSON data has none exactly if there is
an integer of too many digits in it; otherwise another such call has the same one exactly if they
differ at most in the order of members. -/
theorem identify_eq_iff (first : a.IsData) (second : b.IsData) :
    (a.data.Overlong → a.identify = .error .unreadable) ∧
    (¬ a.data.Overlong →
      (∃ text, a.identify = .ok text) ∧ (a.identify = b.identify ↔ a.Alike b)) := by
  refine ⟨identify_of_overlong, fun short => ⟨⟨_, identify_of_not_overlong short⟩, ?_⟩⟩
  have same_text : a.fingerprint = b.fingerprint ↔ a.Alike b := by
    rw [fingerprint_eq_iff_canonical_eq, first.data_eq, second.data_eq, alike_iff_members,
      Value.alike_iff_canonical_eq first.members second.members]
  rw [← same_text, identify_of_not_overlong short]
  constructor
  · intro same
    unfold identify at same
    split at same
    · exact Except.ok.inj same
    · cases same
  · intro same
    have written := isWritable_iff_not_overlong.2 short
    rw [isWritable_eq_of_fingerprint_eq same] at written
    rw [identify_of_not_overlong (isWritable_iff_not_overlong.1 written), same]

theorem get?_fullMembers (members : Fields) (name : String) :
    Members.get? (Value.fullMembers members) name = (Members.get? members name).map Value.full := by
  induction members with
  | nil => rfl
  | cons m rest ih =>
    obtain ⟨key, v⟩ := m
    by_cases here : key = name
    · simp [Value.fullMembers, Members.get?, here]
    · simp [Value.fullMembers, Members.get?, here, ih]

theorem int_of_ordered_full {v : Value} {n : Int} (same : v.full.ordered = .int n) :
    v = .int n := by
  cases v <;> simp_all [Value.full, Value.ordered]

theorem get?_of_ordered_eq {as bs : Fields}
    (same : (Value.obj as).full.ordered = (Value.obj bs).full.ordered) (name : String) :
    (Members.get? as name).map (fun v => v.full.ordered) =
      (Members.get? bs name).map fun v => v.full.ordered := by
  rw [Value.full, Value.full, Value.ordered_obj, Value.ordered_obj, Value.obj.injEq] at same
  have looked := congrArg (Members.get? · name) same
  simpa only [Value.get?_ordered, get?_fullMembers, Option.map_map, Function.comp_def] using looked

theorem queryArg_ordered_of_fingerprint_eq (same : a.fingerprint = b.fingerprint) (name : String) :
    (Members.get? a.queryArgs name).map (fun v => v.full.ordered) =
      (Members.get? b.queryArgs name).map fun v => v.full.ordered := by
  have data : a.data.ordered = b.data.ordered :=
    Value.ordered_eq_of_canonical_eq (fingerprint_eq_iff_canonical_eq.1 same)
  have arguments : (Value.obj a.queryArgs).full.ordered = (Value.obj b.queryArgs).full.ordered :=
    Option.some.inj (get?_of_ordered_eq data "query_args")
  exact get?_of_ordered_eq arguments name

theorem queryArg_of_fingerprint_eq (same : a.fingerprint = b.fingerprint) {name : String} {n : Int}
    (found : Members.get? b.queryArgs name = some (.int n)) :
    Members.get? a.queryArgs name = some (.int n) := by
  have argument := queryArg_ordered_of_fingerprint_eq same name
  rw [found, Option.map_some, Option.map_eq_some_iff] at argument
  obtain ⟨v, here, value⟩ := argument
  rw [here, int_of_ordered_full value]

def pastOne : Decimal.Double :=
  ⟨false, 1023 * 2 ^ 52 + 1⟩

def nested : Call :=
  ⟨"/items", .get, [("limit", .int 1), ("filter", .obj [("a", .null), ("b", .double pastOne)])], [],
    .arr [.bool true, .str "\"\u00e9"]⟩

def turned : Call :=
  { nested with queryArgs :=
      [("filter", .obj [("b", .double pastOne), ("a", .null)]), ("limit", .int 1)] }

theorem body_nested_isData : nested.body.IsData :=
  .arr (List.forall_mem_cons.2 ⟨.bool true, List.forall_mem_singleton.2 (.str _)⟩)

theorem nested_isData : nested.IsData where
  queryArgs := .obj (by decide) (List.forall_mem_cons.2 ⟨.int 1, List.forall_mem_singleton.2
    (.obj (by decide) (List.forall_mem_cons.2 ⟨.null, List.forall_mem_singleton.2 (.double _)⟩))⟩)
  headers := .obj (by decide) nofun
  body := body_nested_isData

theorem turned_isData : turned.IsData where
  queryArgs := .obj (by decide) (List.forall_mem_cons.2
    ⟨.obj (by decide) (List.forall_mem_cons.2 ⟨.double _, List.forall_mem_singleton.2 .null⟩),
      List.forall_mem_singleton.2 (.int 1)⟩)
  headers := .obj (by decide) nofun
  body := body_nested_isData

theorem turned_alike :
    nested.IsData ∧ turned.IsData ∧ ¬ nested.data.Overlong ∧ nested.identify = turned.identify ∧
      nested.Alike turned := by
  have text : nested.fingerprint = turned.fingerprint := by decide +kernel
  have short : ¬ nested.data.Overlong := isWritable_iff_not_overlong.1 (by decide +kernel)
  have turned_short : ¬ turned.data.Overlong := isWritable_iff_not_overlong.1 (by decide +kernel)
  have same : nested.identify = turned.identify := by
    rw [identify_of_not_overlong short, identify_of_not_overlong turned_short, text]
  have alike := ((identify_eq_iff nested_isData turned_isData).2 short).2.1 same
  exact ⟨nested_isData, turned_isData, short, same, alike⟩

/-- The fingerprint of the call with any code points for a path. -/
def fingerprintAt (path : List Nat) (c : Call) : String :=
  String.ofList ('\x7b' :: List.intercalate [',', ' '] ((sortByName
    (("path", Value.canonicalString "path" ++ ':' :: ' ' :: Value.canonicalPoints path) ::
      Value.canonicalMembers (Value.fullMembers c.members.tail))).map (·.2)) ++ ['\x7d'])

theorem fingerprintAt_path (c : Call) : c.fingerprintAt (c.path.toList.map Char.toNat) =
    c.fingerprint :=
  rfl

def unwrittenCall : Call :=
  ⟨"/a", .get, [("n", .unwritten)], [], .null⟩

/-- A call may have no fingerprint, and paths that differ in code points may be written alike: two
surrogates beside each other like the character that they stand for. -/
theorem fingerprint_short_of_identity :
    (unwrittenCall.IsData ∧ unwrittenCall.identify = .error .unreadable) ∧
    (∀ c : Call, c.fingerprintAt (c.path.toList.map Char.toNat) = c.fingerprint) ∧
    [0x2F, 0xD83D, 0xDE00] ≠ [0x2F, 0x1F600] ∧
    nested.fingerprintAt [0x2F, 0xD83D, 0xDE00] = nested.fingerprintAt [0x2F, 0x1F600] := by
  have data : unwrittenCall.IsData :=
    ⟨.obj (by decide) (List.forall_mem_singleton.2 (.int _)), .obj (by decide) nofun, .null⟩
  have long : unwrittenCall.data.Overlong := by
    rw [data.data_eq]
    refine .obj (m := ("query_args", .obj unwrittenCall.queryArgs)) (by simp [members]) ?_
    exact .obj (List.mem_singleton_self _) Value.overlong_unwritten
  have pair : Value.canonicalPoints [0x2F, 0xD83D, 0xDE00] =
      Value.canonicalPoints [0x2F, 0x1F600] := by decide +kernel
  refine ⟨⟨data, identify_of_overlong long⟩, fingerprintAt_path, by decide, ?_⟩
  rw [fingerprintAt, pair, fingerprintAt]

end Call

end Harvest
