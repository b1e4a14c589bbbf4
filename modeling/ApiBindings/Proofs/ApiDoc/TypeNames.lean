import ApiBindings.ApiDoc.Routes
import ApiBindings.Proofs.Outcomes

/-!
# Names of the types of a route

The types of a route carry its name, its version if it is one of several, and a word for their part
in the route.
-/

namespace ApiBindings.ApiDoc

/-- The name that the types of a route start with. -/
def typePrefix (versioned : Bool) (route : Route) : String :=
  if versioned && route.version != "" then route.name ++ " " ++ route.version else route.name

variable {entry : Value} {versioned : Bool} {route : Route} {fields : List Value} {name : String}
  {ty : Ty}

theorem name_of_recordOf (h : recordOf name fields = .ok (some ty)) : ty.name? = some name := by
  unfold recordOf at h
  split at h
  · cases h
  · obtain ⟨branches, -, h⟩ := bind_eq_ok.1 h
    obtain ⟨members, -, h⟩ := bind_eq_ok.1 h
    cases h
    rfl

/-- The prefix is made from the labels before they are checked. -/
theorem typePrefix_eq {name version : Value} (hname : name = .text route.name)
    (hversion : version = .text route.version) :
    (if versioned && version.isTrue then name.spelling ++ " " ++ version.spelling
      else name.spelling) = typePrefix versioned route := by
  subst hname hversion
  rfl

/-- An entry has the name and the version of a route. -/
def Labels (entry : Value) (route : Route) : Prop :=
  ∃ es, entry = .mapping es ∧ labelOf "name" es = .text route.name ∧
    labelOf "version" es = .text route.version

/-- A route takes its labels from an entry, its URL parameters and its payload from the fields of
the parameters, and its response from those of a success. -/
structure MadeOf (es : List (Scalar × Value)) (fields : List Value) (versioned : Bool)
    (route : Route) : Prop where
  name : labelOf "name" es = .text route.name
  version : labelOf "version" es = .text route.version
  description : ∀ text, route.description = some text → ∃ title, text = Text.cleanMarkup title
  parameterFields : sectionFields (property "parameter" es) = .ok fields
  urlParameters : ∃ byName, fieldsByName fields = .ok byName ∧
    List.Forall₂ (fun n p => p.name = n ∧
        urlParameterType (Value.valueAt? (.text n) byName) = .ok p.ty)
      (markedNames route.url) route.urlParameters
  payload : ∀ ty, route.payload = some ty → ∃ kept,
    recordOf (typePrefix versioned route ++ " payload") kept = .ok (some ty) ∧
      ∀ field ∈ kept, field ∈ fields ∧ ∃ v, field.get "field" = .ok v ∧
        (markedNames route.url).any v.isText = false
  response : ∀ ty, route.response = some ty →
    ∃ fields, recordOf (typePrefix versioned route ++ " response") fields = .ok (some ty)

theorem payloadOf_ok {method : Method} {urlNames : List String}
    (h : payloadOf name method urlNames fields = .ok (some ty)) :
    ∃ kept, recordOf name kept = .ok (some ty) ∧
      ∀ field ∈ kept, field ∈ fields ∧ ∃ v, field.get "field" = .ok v ∧
        urlNames.any v.isText = false := by
  unfold payloadOf at h
  split at h
  · obtain ⟨kept, hkept, h⟩ := bind_eq_ok.1 h
    refine ⟨kept, h, ?_⟩
    intro field hfield
    obtain ⟨hmem, hkeep⟩ := mem_of_filterM hkept hfield
    obtain ⟨v, hv, hkeep⟩ := bind_eq_ok.1 hkeep
    exact ⟨hmem, v, hv, by simpa using Except.ok.inj hkeep⟩
  · cases h

theorem madeOf_of_routeOfEntry (h : routeOfEntry entry versioned = .ok route) :
    ∃ es fields, entry = .mapping es ∧ MadeOf es fields versioned route := by
  unfold routeOfEntry at h
  obtain ⟨es, hes, h⟩ := bind_eq_ok.1 h
  simp only at h
  obtain ⟨method, -, h⟩ := bind_eq_ok.1 h
  obtain ⟨parameterFields, hfields, h⟩ := bind_eq_ok.1 h
  obtain ⟨successFields, -, h⟩ := bind_eq_ok.1 h
  obtain ⟨url, -, h⟩ := bind_eq_ok.1 h
  obtain ⟨byName, hbyName, h⟩ := bind_eq_ok.1 h
  obtain ⟨parameters, hparameters, h⟩ := bind_eq_ok.1 h
  obtain ⟨payload, hp, h⟩ := bind_eq_ok.1 h
  obtain ⟨title, -, h⟩ := bind_eq_ok.1 h
  obtain ⟨response, hr, h⟩ := bind_eq_ok.1 h
  obtain ⟨hname, hversion, hpayload, hresponse⟩ := RouteDraft.of_check h
  obtain ⟨-, hurl, hurlParameters⟩ := RouteDraft.url_of_check h
  obtain ⟨-, -, hdescription, -⟩ := RouteDraft.check_ok h
  rw [typePrefix_eq hname hversion] at hp hr
  refine ⟨es, parameterFields, Value.eq_mapping_of_entries hes, hname, hversion, ?_, hfields, ?_, ?_,
    ?_⟩
  · intro text ht
    rw [ht] at hdescription
    cases Value.eq_of_checkDescription hdescription
    exact ⟨title, rfl⟩
  · rw [hurl, hurlParameters]
    refine ⟨byName, hbyName, (forall₂_of_mapM hparameters).imp fun n p hp => ?_⟩
    obtain ⟨ty, hty, hp⟩ := bind_eq_ok.1 hp
    obtain rfl := Except.ok.inj hp
    exact ⟨rfl, hty⟩
  · intro ty hty
    rw [hurl]
    exact payloadOf_ok (hp.trans (congrArg Except.ok (hpayload.symm.trans hty)))
  · intro ty hty
    exact ⟨successFields, hr.trans (congrArg Except.ok (hresponse.symm.trans hty))⟩

theorem routeOfEntry_ok (h : routeOfEntry entry versioned = .ok route) :
    Labels entry route ∧
      (∀ ty, route.payload = some ty →
        ∃ fields, recordOf (typePrefix versioned route ++ " payload") fields = .ok (some ty)) ∧
      ∀ ty, route.response = some ty →
        ∃ fields, recordOf (typePrefix versioned route ++ " response") fields = .ok (some ty) := by
  obtain ⟨es, fields, hentry, hmade⟩ := madeOf_of_routeOfEntry h
  refine ⟨⟨es, hentry, hmade.name, hmade.version⟩, ?_, hmade.response⟩
  intro ty hty
  obtain ⟨kept, hrecord, -⟩ := hmade.payload ty hty
  exact ⟨kept, hrecord⟩

theorem names_of_routeOfEntry (h : routeOfEntry entry versioned = .ok route) :
    (∀ ty, route.payload = some ty → ty.name? = some (typePrefix versioned route ++ " payload")) ∧
      ∀ ty, route.response = some ty →
        ty.name? = some (typePrefix versioned route ++ " response") := by
  obtain ⟨-, hpayload, hresponse⟩ := routeOfEntry_ok h
  constructor
  · intro ty hty
    obtain ⟨fields, hrecord⟩ := hpayload ty hty
    exact name_of_recordOf hrecord
  · intro ty hty
    obtain ⟨fields, hrecord⟩ := hresponse ty hty
    exact name_of_recordOf hrecord

end ApiBindings.ApiDoc
