import ApiBindings.Proofs.ApiDoc.Record
import ApiBindings.Proofs.ApiDoc.TypeNames
import ApiBindings.Proofs.Source.Parameters

/-!
# URL parameters of an apiDoc route

The URL of an entry is cut into parts twice, for the parameters of its route and for the segments of
the URL in a client, and both find the same names in the same order (`markedNames_eq`). The fields
of the entry give the parameters their types, the last field of a name that of the parameter of the
name (`valueAt?_fieldsByName`). They also make up the payload, without those that are named like a
parameter. So a member of the payload can only be named like a parameter if no field declares it and
it holds the fields below the name (`encloses_of_mem_payload`).
-/

namespace ApiBindings.ApiDoc

variable {entry : Value} {versioned : Bool} {route : Route} {fields : List Value} {name : String}

/-! ## Two ways to cut a URL -/

theorem markedNames_eq (url : String) :
    markedNames url = (Segment.ofUrl url).filterMap Segment.parameter? := by
  unfold markedNames Segment.ofUrl
  induction Text.split '/' url.toList with
  | nil => rfl
  | cons part parts ih =>
    rw [List.map_cons, List.filterMap_cons, ← ih]
    cases part with
    | nil => rfl
    | cons c cs =>
      by_cases hc : c = ':'
      · subst hc
        rfl
      · have hliteral : Segment.ofPart (c :: cs) = .literal (String.ofList (c :: cs)) := by
          unfold Segment.ofPart
          split
          · rename_i h
            exact absurd (List.cons.inj h).1 hc
          · rfl
        rw [hliteral, List.filter_cons_of_neg (by simpa using hc)]
        rfl

/-! ## The fields of a section -/

/-- The fields of a section, which holds them in groups. -/
def SectionFields (part : Value) (fields : List Value) : Prop :=
  ∃ groups lists, (part.entry "fields").HasEntries groups ∧
    List.Forall₂ (fun g items => g.2.Visits items) groups lists ∧ fields = lists.flatten

theorem sectionFields_ok {part : Value} (h : sectionFields part = .ok fields) :
    SectionFields part fields := by
  unfold sectionFields at h
  split at h
  · rename_i hfalse
    obtain rfl := Except.ok.inj h
    rw [Bool.not_eq_true'] at hfalse
    refine ⟨[], [], ?_, .nil, rfl⟩
    rw [Value.entry_of_isTrue_eq_false hfalse]
    exact .inr ⟨rfl, rfl⟩
  · obtain ⟨v, hv, h⟩ := bind_eq_ok.1 h
    obtain ⟨groups, hgroups, h⟩ := bind_eq_ok.1 h
    obtain ⟨lists, hlists, h⟩ := bind_eq_ok.1 h
    obtain rfl := Except.ok.inj h
    refine ⟨groups, lists, ?_, ?_, rfl⟩
    · rw [Value.entry_of_get hv]
      exact Value.entries_of_orElse_eq_ok_iff.1 hgroups
    · exact (forall₂_of_mapM hlists).imp fun g items => Value.elements_eq_ok_iff.1

theorem SectionFields.unique {part : Value} {others : List Value} (h : SectionFields part fields)
    (h' : SectionFields part others) : fields = others := by
  obtain ⟨groups, lists, hgroups, hlists, rfl⟩ := h
  obtain ⟨groups', lists', hgroups', hlists', rfl⟩ := h'
  obtain rfl := hgroups.unique hgroups'
  have hvisits : Relator.RightUnique fun (g : Scalar × Value) items => g.2.Visits items :=
    fun g items others => Value.Visits.unique
  rw [hvisits.forall₂ hlists hlists']

/-! ## The field of a name -/

def isNamed (name : String) (field : Value) : Bool := (field.entry "field").isText name

def lastNamed (name : String) (fields : List Value) : Option Value :=
  (fields.filter (isNamed name)).getLast?

theorem lastNamed_append_singleton (field : Value) :
    lastNamed name (fields ++ [field]) =
      if isNamed name field then some field else lastNamed name fields := by
  unfold lastNamed
  rw [List.filter_append]
  cases hnamed : isNamed name field with
  | true => simp [hnamed]
  | false => simp [hnamed]

theorem valueAt?_fieldsByName {table : List (Scalar × Value)}
    (h : fieldsByName fields = .ok table) :
    Value.valueAt? (.text name) table = lastNamed name fields := by
  induction fields using List.reverseRecOn generalizing table with
  | nil =>
    obtain rfl := Except.ok.inj h
    rfl
  | append_singleton fields field ih =>
    unfold fieldsByName at h
    rw [List.foldlM_append] at h
    obtain ⟨before, hbefore, h⟩ := bind_eq_ok.1 h
    rw [List.foldlM_cons] at h
    obtain ⟨after, hafter, h⟩ := bind_eq_ok.1 h
    obtain rfl := Except.ok.inj h
    obtain ⟨v, hv, hafter⟩ := bind_eq_ok.1 hafter
    obtain ⟨key, hkey, hafter⟩ := bind_eq_ok.1 hafter
    obtain rfl := Except.ok.inj hafter
    have hnamed : isNamed name field = (key == .text name) := by
      rw [isNamed, Value.entry_of_get hv, Value.eq_scalar_of_asKey hkey]
      exact Value.isText_scalar name key
    rw [Value.valueAt?_put, lastNamed_append_singleton, hnamed, ih hbefore]

theorem isNamed_of_text {field : Value} (h : field.entry "field" = .text name) :
    isNamed name field := by
  rw [isNamed, h]
  exact beq_self_eq_true name

/-! ## The type of a parameter -/

/-- A field declares a primitive type. -/
def DeclaresPrimitive (field : Value) (p : Primitive) : Prop :=
  ∃ declaration word, field = .mapping declaration ∧ IsOfType declaration ⟨word, false⟩ ∧
    word ∈ wordsFor p

/-- The type of a parameter with at most one field: the primitive type that the field declares, and
a text if it declares none. -/
def TypedBy (field : Option Value) (p : Primitive) : Prop :=
  (∃ f, field = some f ∧ DeclaresPrimitive f p) ∨
    p = .string ∧ ∀ f q, field = some f → ¬ DeclaresPrimitive f q

theorem word_ne_objectType {word : String} {p : Primitive} (h : word ∈ wordsFor p) :
    word ≠ objectType := by
  rintro rfl
  cases primitive?_eq_some_iff.2 h

theorem typedBy_of_urlParameterType {field : Option Value} {p : Primitive}
    (h : urlParameterType field = .ok p) : TypedBy field p := by
  cases field with
  | none => exact .inr ⟨(Except.ok.inj h).symm, nofun⟩
  | some field =>
    obtain ⟨declaration, hentries, hread⟩ := bind_eq_ok.1 h
    obtain ⟨raw, hraw, hty⟩ := bind_eq_ok.1 hread
    obtain rfl := Value.eq_mapping_of_entries hentries
    have hwritten := isOfType_of_writtenType hraw
    simp only [Bool.or_eq_true, decide_eq_true_eq] at hty
    split at hty
    · rename_i hother
      refine .inr ⟨(Except.ok.inj hty).symm, ?_⟩
      rintro f q hf ⟨declaration', word, hfield, hdeclared, hword⟩
      obtain rfl := Value.mapping.inj ((Option.some.inj hf).trans hfield)
      rw [hwritten.unique hdeclared] at hother
      rcases hother with hobject | harray
      · exact word_ne_objectType hword hobject
      · cases harray
    · rename_i hplain
      rw [not_or, Bool.not_eq_true] at hplain
      refine .inl ⟨_, rfl, declaration, (FieldType.parse raw).base, rfl, ?_, ?_⟩
      · rwa [← hplain.2]
      · unfold primitiveOf at hty
        split at hty
        · rename_i hp
          rw [← primitive?_eq_some_iff, hp, Except.ok.inj hty]
        · cases hty

/-! ## Members of the payload -/

/-- A member of a record that is named like no field is there for the fields below its name: it is a
required record without a description. -/
theorem member_of_no_field {place : String} {kept : List Value} {ty : Ty}
    (h : recordOf place kept = .ok (some ty)) :
    ∃ members, ty = .record place members ∧
      ∀ m ∈ members, (∀ field ∈ kept, ¬ isNamed m.name field) →
        (∃ field ∈ kept, ∃ rest, field.entry "field" = .text (m.name ++ "." ++ rest)) ∧
          m.description = none ∧ m.isOptional = false ∧
          ∃ nested, m.ty = .record (place ++ " " ++ m.name) nested := by
  obtain ⟨placed, members, hplaced, rfl, hmembers⟩ := recordOf_ok h
  refine ⟨members, rfl, ?_⟩
  intro m hm hnone
  have htext : ∀ p ∈ placed,
      ∃ field ∈ kept, field.entry "field" = .text (".".intercalate p.1) := by
    intro p hp
    obtain ⟨field, hfield, hpath⟩ := exists_of_mem_right (forall₂_of_mapM hplaced) hp
    exact ⟨field, hfield, (isPlaced_of_fieldPath hpath).name⟩
  have hbuilt : Built place placed (.record place members) := .record hmembers
  have hfollows : FollowsFields place placed [] (.record place members) :=
    followsFields_of_built (by rwa [below_nil])
  have hundeclared : declaredAt [m.name] placed = none := by
    cases hd : declaredAt [m.name] placed with
    | none => rfl
    | some declaration =>
      obtain ⟨field, hfield, hname⟩ := htext _ (mem_of_declaredAt hd)
      exact absurd (isNamed_of_text hname) (hnone field hfield)
  obtain ⟨hty, hrest⟩ := hfollows.declared m hm
  rw [List.nil_append, hundeclared] at hty hrest
  obtain ⟨hdescription, hoptional⟩ := hrest
  refine ⟨?_, hdescription, hoptional, hty⟩
  obtain ⟨p, hp, rest, hrest⟩ := hfollows.listed m hm
  obtain ⟨field, hfield, hname⟩ := htext p hp
  rw [← hrest] at hname
  cases rest with
  | nil => exact absurd (isNamed_of_text hname) (hnone field hfield)
  | cons key rest =>
    refine ⟨field, hfield, ".".intercalate (key :: rest), ?_⟩
    rw [hname]
    exact congrArg Value.text String.intercalate_cons_cons

/-- A member of a record that is there for the fields below its name, of which some are not left
out. -/
structure Encloses (place : String) (fields : List Value) (leftOut : List String) (m : Member) :
    Prop where
  below : ∃ field ∈ fields, ∃ rest, isNamed (m.name ++ "." ++ rest) field ∧
    m.name ++ "." ++ rest ∉ leftOut
  description : m.description = none
  isOptional : m.isOptional = false
  ty : ∃ members, m.ty = .record (place ++ " " ++ m.name) members

theorem encloses_of_mem_payload {es : List (Scalar × Value)} {ty : Ty}
    (hmade : MadeOf es fields versioned route) (hpayload : route.payload = some ty) :
    ∃ members, ty = .record (typePrefix versioned route ++ " payload") members ∧
      ∀ m ∈ members, m.name ∈ markedNames route.url →
        Encloses (typePrefix versioned route ++ " payload") fields (markedNames route.url) m := by
  obtain ⟨kept, hrecord, hkept⟩ := hmade.payload ty hpayload
  have hunmarked : ∀ field ∈ kept, ∀ n, isNamed n field → n ∉ markedNames route.url := by
    intro field hfield n hnamed hmem
    obtain ⟨-, v, hv, hnone⟩ := hkept field hfield
    rw [List.any_eq_false] at hnone
    rw [isNamed, Value.entry_of_get hv] at hnamed
    exact hnone n hmem hnamed
  obtain ⟨members, hty, hmembers⟩ := member_of_no_field hrecord
  refine ⟨members, hty, ?_⟩
  intro m hm hmarked
  obtain ⟨⟨field, hfield, rest, hname⟩, hdescription, hoptional, hrecord⟩ :=
    hmembers m hm fun field hfield hnamed => hunmarked field hfield m.name hnamed hmarked
  have hnamed := isNamed_of_text hname
  exact ⟨⟨field, (hkept field hfield).1, rest, hnamed, hunmarked field hfield _ hnamed⟩,
    hdescription, hoptional, hrecord⟩

/-! ## The parameters of a route -/

/-- **The URL parameters of a route are exactly those of its URL.** Whenever an entry has a route,
the parameters in its URL are its URL parameters, in the same order. Each has the type of the last
field of its name if that declares a primitive, and is a text otherwise. No member of the payload is
named like a URL parameter, unless it is there for the fields below it. In a client of either
language the parameters in the URL stand as identifiers of the list of parameters. -/
theorem url_parameters_exact (h : routeOfEntry entry versioned = .ok route) :
    ∃ fields, SectionFields (entry.entry "parameter") fields ∧
      route.segments.filterMap Segment.parameter? = route.urlParameters.map (·.name) ∧
      (∀ p ∈ route.urlParameters, TypedBy (lastNamed p.name fields) p.ty) ∧
      (∀ ty, route.payload = some ty → ∃ members,
        ty = .record (typePrefix versioned route ++ " payload") members ∧
          ∀ m ∈ members, m.name ∈ route.urlParameters.map (·.name) →
            Encloses (typePrefix versioned route ++ " payload") fields
              (route.urlParameters.map (·.name)) m) ∧
      ∀ language : Source.Language,
        List.Forall₂
          (Source.StandsAs language
            (Source.identifiersOf language (language.parameterList route)))
          route.segments (Text.splitText '/' (language.urlTemplate route)) := by
  obtain ⟨es, fields, rfl, hmade⟩ := madeOf_of_routeOfEntry h
  obtain ⟨byName, hbyName, hparameters⟩ := hmade.urlParameters
  have hnames : route.urlParameters.map (·.name) = markedNames route.url := by
    have hall : List.Forall₂ (fun a b => a = b) (route.urlParameters.map (·.name))
        (markedNames route.url) :=
      List.forall₂_map_left_iff.2 (hparameters.flip.imp fun p n hp => hp.1)
    rwa [List.forall₂_eq_eq_eq] at hall
  have hsegments : route.segments.filterMap Segment.parameter? =
      route.urlParameters.map (·.name) := by
    rw [hnames, markedNames_eq]
    rfl
  refine ⟨fields, sectionFields_ok hmade.parameterFields, hsegments, ?_, ?_, ?_⟩
  · intro p hp
    obtain ⟨n, -, hname, hty⟩ := exists_of_mem_right hparameters hp
    subst hname
    rw [valueAt?_fieldsByName hbyName] at hty
    exact typedBy_of_urlParameterType hty
  · intro ty hty
    rw [hnames]
    exact encloses_of_mem_payload hmade hty
  · intro language
    refine Source.standsAs_urlTemplate language fun name hname => ?_
    have hmem : name ∈ route.urlParameters.map (·.name) := by
      rw [← hsegments]
      exact List.mem_filterMap.2 ⟨_, hname, rfl⟩
    obtain ⟨p, hp, rfl⟩ := List.mem_map.1 hmem
    exact ⟨(p.name, .primitive p.ty), List.mem_append_left _ (List.mem_map.2 ⟨p, hp, rfl⟩), rfl⟩

/-- The fields of a user in its path. The number is declared a second time in its body. -/
def pathFields : List Value := [.mapping (typed "id" "Integer"), .mapping (typed "tag" "String[]")]

def bodyFields : List Value :=
  [.mapping (typed "id" "\x7bpositive\x7d Number"), .mapping (typed "id.region" "String"),
    .mapping (typed "title" "String")]

/-- What an entry for a route that changes a user holds. -/
def updateEntries : List (Scalar × Value) :=
  [(.text "type", .text "put"), (.text "url", .text "/users/:id/:tag/:note"),
    (.text "name", .text "UpdateUser"),
    (.text "parameter", .mapping [(.text "fields", .mapping [(.text "Path", .list pathFields),
      (.text "Body", .list bodyFields)])])]

/-- The member for the field below the number. -/
def regionMember : Member :=
  ⟨"id", none, .record "UpdateUser payload id" [⟨"region", none, .primitive .string, false⟩], false⟩

def updatePayload : Ty :=
  .record "UpdateUser payload" [regionMember, ⟨"title", none, .primitive .string, false⟩]

def updateRoute : Route :=
  ⟨"UpdateUser", none, .put, "/users/:id/:tag/:note", "", "",
    [⟨"id", .float⟩, ⟨"tag", .string⟩, ⟨"note", .string⟩], some updatePayload, none⟩

theorem recordOf_bodyFields :
    recordOf "UpdateUser payload" bodyFields.tail = .ok (some updatePayload) := by
  -- level by level, since evaluating a tree at once repeats the levels below
  let region : Branch := .mk (some (typed "id.region" "String")) []
  let title : Branch := .mk (some (typed "title" "String")) []
  have hbranches : branchesOf bodyFields.tail =
      .ok [("id", .mk none [("region", region)]), ("title", title)] := rfl
  have hregion : membersOf "UpdateUser payload id" [("region", region)] =
      .ok [⟨"region", none, .primitive .string, false⟩] := rfl
  have hid : typeOf ("UpdateUser payload" ++ " " ++ "id") (.mk none [("region", region)]) =
      .ok regionMember.ty := by
    change typeOf "UpdateUser payload id" _ = _
    rw [typeOf, hregion]
    rfl
  have htitle : membersOf "UpdateUser payload" [("title", title)] =
      .ok [⟨"title", none, .primitive .string, false⟩] := rfl
  have hmembers : membersOf "UpdateUser payload"
      [("id", .mk none [("region", region)]), ("title", title)] =
      .ok [regionMember, ⟨"title", none, .primitive .string, false⟩] := by
    rw [membersOf, hid, htitle]
    rfl
  have hsome : bodyFields.tail.isEmpty = false := rfl
  simp only [recordOf, hsome, hbranches, bind, Except.bind, hmembers]
  rfl

theorem routeOfEntry_updateEntries :
    routeOfEntry (.mapping updateEntries) false = .ok updateRoute := by
  unfold routeOfEntry
  refine bind_eq_ok.2 ⟨updateEntries, rfl, ?_⟩
  refine bind_eq_ok.2 ⟨.put, rfl, ?_⟩
  refine bind_eq_ok.2 ⟨pathFields ++ bodyFields, rfl, ?_⟩
  refine bind_eq_ok.2 ⟨[], rfl, ?_⟩
  refine bind_eq_ok.2 ⟨"/users/:id/:tag/:note", rfl, ?_⟩
  refine bind_eq_ok.2 ⟨_, rfl, ?_⟩
  refine bind_eq_ok.2 ⟨[⟨"id", .float⟩, ⟨"tag", .string⟩, ⟨"note", .string⟩], rfl, ?_⟩
  refine bind_eq_ok.2 ⟨some updatePayload, ?_, ?_⟩
  · exact bind_eq_ok.2 ⟨bodyFields.tail, rfl, recordOf_bodyFields⟩
  refine bind_eq_ok.2 ⟨"", rfl, ?_⟩
  exact bind_eq_ok.2 ⟨none, rfl, rfl⟩

/-- The number of a user is typed by its second declaration, an array in the path is a text like a
parameter without a field, and the payload has a member for the field below the number. -/
theorem update_parameters_exact :
    routeOfEntry (.mapping updateEntries) false = .ok updateRoute ∧
      updateRoute.segments.filterMap Segment.parameter? = ["id", "tag", "note"] ∧
      lastNamed "id" (pathFields ++ bodyFields) = bodyFields.head? ∧
      TypedBy bodyFields.head? .float ∧
      TypedBy (lastNamed "tag" (pathFields ++ bodyFields)) .string ∧
      TypedBy (lastNamed "note" (pathFields ++ bodyFields)) .string ∧
      Encloses "UpdateUser payload" (pathFields ++ bodyFields) ["id", "tag", "note"] regionMember ∧
      Source.Language.typeScript.parameterList updateRoute =
        "id: number, tag: string, note: string, payload: UpdateUserPayload" ∧
      Source.Language.typeScript.urlTemplate updateRoute =
        "/users/$\x7bid\x7d/$\x7btag\x7d/$\x7bnote\x7d" ∧
      ∀ language : Source.Language,
        List.Forall₂
          (Source.StandsAs language
            (Source.identifiersOf language (language.parameterList updateRoute)))
          updateRoute.segments (Text.splitText '/' (language.urlTemplate updateRoute)) := by
  obtain ⟨fields, hfields, hsegments, htypes, hpayload, hidentifiers⟩ :=
    url_parameters_exact routeOfEntry_updateEntries
  obtain rfl : pathFields ++ bodyFields = fields := (sectionFields_ok rfl).unique hfields
  obtain ⟨members, hmembers, hencloses⟩ := hpayload _ rfl
  obtain ⟨-, rfl⟩ := Ty.record.inj hmembers
  exact ⟨routeOfEntry_updateEntries, hsegments, rfl, htypes ⟨"id", .float⟩ List.mem_cons_self,
    htypes ⟨"tag", .string⟩ (.tail _ List.mem_cons_self),
    htypes ⟨"note", .string⟩ (.tail _ (.tail _ List.mem_cons_self)),
    hencloses regionMember List.mem_cons_self List.mem_cons_self, rfl, rfl, hidentifiers⟩

end ApiBindings.ApiDoc
