import ApiBindings.Proofs.ApiDoc.Record

/-!
# Fields that a record keeps

A field that is declared with another type than an object hides the fields below it. So a field of
the list is kept, as a member at its path, exactly if no field around it is declared so
(`field_kept_iff`).
-/

namespace ApiBindings.ApiDoc

variable {place name : String} {placed : List Placement} {fields : List Value} {ty : Ty}
  {path : List String}

theorem exists_member {key : String} {rest : List String} {declaration : Declaration}
    (h : Built place placed ty) (hne : ty.fields ≠ []) (hp : (key :: rest, declaration) ∈ placed) :
    ∃ inner, typeOf (place ++ " " ++ key) (branchAt key placed) = .ok inner ∧
      ((∃ part, ty.Nests (key :: rest) part) ↔ ∃ part, inner.Nests rest part) := by
  obtain ⟨first, hfirst⟩ := List.exists_mem_of_ne_nil _ hne
  obtain ⟨hnames, hmembers⟩ := membersOf_treeOf (h.membersOf_fields hfirst)
  have hkey : key ∈ ty.fields.map (·.name) := by
    rw [hnames]
    exact mem_mentioned_iff.2 ⟨_, hp, by simp⟩
  obtain ⟨m, hm, rfl⟩ := List.mem_map.1 hkey
  obtain ⟨-, htype, -⟩ := hmembers m hm
  refine ⟨m.ty, htype, ?_, ?_⟩
  · rintro ⟨part, hn⟩
    obtain ⟨m', hm', hname, hn⟩ := Ty.nests_cons_iff.1 hn
    obtain ⟨-, htype', -⟩ := hmembers m' hm'
    rw [hname, htype] at htype'
    rw [Except.ok.inj htype']
    exact ⟨part, hn⟩
  · rintro ⟨part, hn⟩
    exact ⟨part, .member hm hn⟩

/-- The fields at a path are kept by all the declarations on the way. -/
def KeptAlong (path : List String) (placed : List Placement) : Prop :=
  ∀ outer, outer ≠ [] → outer <+: path → outer ≠ path → KeepsFields (declaredAt outer placed)

theorem keptAlong_singleton (key : String) (placed : List Placement) : KeptAlong [key] placed := by
  intro outer hne hpre hself
  rcases List.prefix_cons_iff.1 hpre with rfl | ⟨outer', rfl, hpre'⟩
  · exact absurd rfl hne
  · exact absurd (congrArg _ (List.prefix_nil.1 hpre')) hself

theorem keptAlong_cons_cons {key next : String} {rest : List String} :
    KeptAlong (key :: next :: rest) placed ↔
      KeepsFields (declaredAt [key] placed) ∧ KeptAlong (next :: rest) (below [key] placed) := by
  constructor
  · intro hall
    refine ⟨hall [key] (by simp) (by simp) (by simp), fun outer hne hpre hself => ?_⟩
    rw [← declaredAt_cons]
    refine hall (key :: outer) (by simp) (by simpa using hpre) fun heq => ?_
    exact hself (List.cons.inj heq).2
  · rintro ⟨hkey, hall⟩ outer hne hpre hself
    rcases List.prefix_cons_iff.1 hpre with rfl | ⟨outer', rfl, hpre'⟩
    · exact absurd rfl hne
    by_cases hnil : outer' = []
    · rw [hnil]
      exact hkey
    · rw [declaredAt_cons]
      exact hall outer' hnil hpre' fun heq => hself (congrArg _ heq)

/-- A path that is placed is a path of the type if the declarations on the way keep it. -/
theorem nests_iff {declaration : Declaration} (h : Built place placed ty) (hfields : ty.fields ≠ [])
    (hne : path ≠ []) (hp : (path, declaration) ∈ placed) :
    (∃ part, ty.Nests path part) ↔ KeptAlong path placed := by
  induction path generalizing place placed ty with
  | nil => exact absurd rfl hne
  | cons key rest ih =>
    obtain ⟨inner, htype, hinner⟩ := exists_member h hfields hp
    obtain ⟨-, hbuilt, hkeeps⟩ := typeOf_branchAt htype
    rw [hinner]
    cases rest with
    | nil => exact ⟨fun _ => keptAlong_singleton key placed, fun _ => ⟨inner, .self inner⟩⟩
    | cons next rest =>
      have hnext : next ∈ mentioned [key] placed := mem_mentioned_iff.2 ⟨_, hp, by simp⟩
      rw [keptAlong_cons_cons, hkeeps (List.ne_nil_of_mem hnext)]
      by_cases hnone : inner.fields = []
      · constructor
        · rintro ⟨part, hn⟩
          obtain ⟨m, hm, -⟩ := Ty.nests_cons_iff.1 hn
          rw [hnone] at hm
          cases hm
        · rintro ⟨hsome, -⟩
          exact absurd hnone hsome
      · rw [ih hbuilt hnone (by simp) (mem_below_iff.2 hp)]
        exact ⟨fun hall => ⟨hnone, hall⟩, fun hall => hall.2⟩

/-- **A field is kept if no field around it is declared with another type than an object.** Whenever
a list of fields has a record, the record has a member at the path of a field exactly if every field
around it is declared as an object, or an array of objects, or is not declared; of several
declarations at one path the last one counts. -/
theorem field_kept_iff (h : recordOf name fields = .ok (some ty)) :
    ∃ placed, fields.mapM fieldPath = .ok placed ∧
      ∀ field ∈ fields, ∃ path declaration, fieldPath field = .ok (path, declaration) ∧
        (ty.HasMember path ↔ KeptAlong path placed) := by
  obtain ⟨placed, members, hplaced, rfl, hmembers⟩ := recordOf_ok h
  refine ⟨placed, hplaced, fun field hfield => ?_⟩
  obtain ⟨⟨path, declaration⟩, hp, hpath⟩ :=
    exists_of_mem_right (forall₂_of_mapM hplaced).flip hfield
  refine ⟨path, declaration, hpath, ?_⟩
  have hne := (isPlaced_of_fieldPath hpath).ne_nil
  rw [Ty.hasMember_iff hne]
  refine nests_iff (.record hmembers) ?_ hne hp
  obtain ⟨key, rest, rfl⟩ := List.exists_cons_of_ne_nil hne
  have hkey : key ∈ members.map (·.name) := by
    rw [(membersOf_treeOf hmembers).1]
    exact mem_mentioned_iff.2 ⟨_, hp, by simp⟩
  obtain ⟨m, hm, -⟩ := List.mem_map.1 hkey
  exact List.ne_nil_of_mem hm

/-- The fields of an address and the address itself, which is declared with the given type. -/
def addressFields (type : String) : List Value :=
  [.mapping (typed "address" type), .mapping (typed "address.street" "String")]

def addressRecord : Ty :=
  .record "GetUser response" [⟨"address", none,
    .record "GetUser response address" [⟨"street", none, .primitive .string, false⟩], false⟩]

theorem recordOf_addressFields :
    recordOf "GetUser response" (addressFields "Object") = .ok (some addressRecord) := by
  -- level by level, since evaluating a tree at once repeats the levels below
  let street : Branch := .mk (some (typed "address.street" "String")) []
  let address : Branch := .mk (some (typed "address" "Object")) [("street", street)]
  have hbranches : branchesOf (addressFields "Object") = .ok [("address", address)] := rfl
  have hstreet : membersOf "GetUser response address" [("street", street)] =
      .ok [⟨"street", none, .primitive .string, false⟩] := rfl
  have haddress : typeOf ("GetUser response" ++ " " ++ "address") address =
      .ok (.record "GetUser response address" [⟨"street", none, .primitive .string, false⟩]) := by
    change typeOf "GetUser response address" address = _
    rw [typeOf, hstreet]
    rfl
  have hmembers : membersOf "GetUser response" [("address", address)] = .ok [⟨"address", none,
      .record "GetUser response address" [⟨"street", none, .primitive .string, false⟩], false⟩] := by
    rw [membersOf, haddress]
    rfl
  simp only [recordOf, hbranches, bind, Except.bind, hmembers]
  rfl

/-- The fields of an address are kept if the address is an object. -/
theorem street_of_object_kept :
    recordOf "GetUser response" (addressFields "Object") = .ok (some addressRecord) ∧
      ∃ placed, (addressFields "Object").mapM fieldPath = .ok placed ∧
        ∀ field ∈ addressFields "Object", ∃ path declaration,
          fieldPath field = .ok (path, declaration) ∧
          (addressRecord.HasMember path ↔ KeptAlong path placed) :=
  ⟨recordOf_addressFields, field_kept_iff recordOf_addressFields⟩

/-- The street of an address is lost if the address is declared as a text. -/
theorem street_of_text_lost : ∃ ty field path declaration,
    recordOf "GetUser response" (addressFields "String") = .ok (some ty) ∧
      field ∈ addressFields "String" ∧ fieldPath field = .ok (path, declaration) ∧
      path = ["address", "street"] ∧ ¬ ty.HasMember path := by
  let street : Branch := .mk (some (typed "address.street" "String")) []
  let address : Branch := .mk (some (typed "address" "String")) [("street", street)]
  have hbranches : branchesOf (addressFields "String") = .ok [("address", address)] := rfl
  have haddress : ∀ place, typeOf place address = .ok (.primitive .string) := by
    intro place
    rw [typeOf]
    rfl
  have hmembers : membersOf "GetUser response" [("address", address)] =
      .ok [⟨"address", none, .primitive .string, false⟩] := by
    rw [membersOf, haddress]
    rfl
  refine ⟨.record "GetUser response" [⟨"address", none, .primitive .string, false⟩],
    .mapping (typed "address.street" "String"), ["address", "street"], _, ?_,
    by simp [addressFields], rfl, rfl, ?_⟩
  · simp only [recordOf, hbranches, bind, Except.bind, hmembers]
    rfl
  rw [Ty.hasMember_iff (by simp)]
  rintro ⟨part, hn⟩
  obtain ⟨m, hm, -, hn⟩ := Ty.nests_cons_iff.1 hn
  obtain rfl := List.mem_singleton.1 hm
  obtain ⟨m, hm, -⟩ := Ty.nests_cons_iff.1 hn
  cases hm

end ApiBindings.ApiDoc
