import LuauAnnotation.Proofs.JsonGrammar
import LuauAnnotation.Settings.Load
import Mathlib.Data.List.Nodup
import Mathlib.Data.List.Perm.Subperm

/-!
# Settings are read from the members of a map

The entries of a map are read one after the other, and the fields that they give are kept on the
way. A member of another name changes nothing, and a name counts as often behind what is read as it
is given already. So the fields of settings are found wherever they stand, whatever stands between
them and however it is spelled, a field that is left out has its default, and a field that stands
twice is a fault.
-/

namespace LuauAnnotation.Settings

open Json (Reading Entries Value Numeral Spelled ReadsAs)

/-! ### Fields by name -/

/-- The name of a field. -/
def isField (name : Text) : Bool := name = depthKey.toList || name = strictKey.toList

/-- Both fields by name with the texts of their values. -/
def fields (settings : Settings) : List (Text × Text) :=
  [(depthKey.toList, (Value.number (Numeral.ofNat settings.maxDepth.toNat)).print),
    (strictKey.toList, (Value.boolean settings.strict).print)]

/-- The two fields have different names. -/
@[simp] theorem strictKey_ne_depthKey : strictKey.toList ≠ depthKey.toList := by decide

/-- A member of a map is the field of that name in settings, or is passed over. -/
def FieldOf (settings : Settings) (name : Text) (value : Reading) : Prop :=
  if name = depthKey.toList then value.word = .ok settings.maxDepth
  else if name = strictKey.toList then value.boolean = .ok settings.strict
  else value.pass = .ok ()

/-- A word is read from its numeral. -/
theorem word_ofValue_ofNat (n : UInt64) :
    (Reading.ofValue (.number (Numeral.ofNat n.toNat))).word = .ok n := by
  have hnumber : (Numeral.ofNat n.toNat).number? = some (.integer n.toNat) := by
    simp [Numeral.ofNat, Numeral.number?, n.toNat_lt_size]
  rw [Reading.ofValue, Reading.word, hnumber]
  change Except.ok (UInt64.ofNat n.toNat) = _
  rw [UInt64.ofNat_toNat]

/-- The text of a field is read as the field. -/
theorem readsAs_of_mem_fields {settings : Settings} {member : Text × Text}
    (h : member ∈ settings.fields) : ReadsAs member.2 (FieldOf settings member.1) := by
  rw [fields, List.mem_cons, List.mem_singleton] at h
  rcases h with rfl | rfl
  · refine (Json.readsAs_print _).imp ?_
    rintro _ rfl
    exact word_ofValue_ofNat settings.maxDepth
  · refine (Json.readsAs_print _).imp ?_
    rintro _ rfl
    rfl

/-- The text of a member of another name is passed over. -/
theorem readsAs_of_not_isField {settings : Settings} {member : Text × Text}
    (hname : isField member.1 = false) (hvalue : Json.IsValue member.2) :
    ReadsAs member.2 (FieldOf settings member.1) := by
  rw [isField, Bool.or_eq_false_iff, decide_eq_false_iff_not, decide_eq_false_iff_not] at hname
  refine hvalue.readsAs.imp fun reading hreading => ?_
  rw [FieldOf, if_neg hname.1, if_neg hname.2]
  exact hreading

/-! ### One member -/

namespace Given

/-- The field of a name is given. -/
def has (given : Given) (name : Text) : Bool :=
  if name = depthKey.toList then given.maxDepth.isSome
  else name = strictKey.toList && given.strict.isSome

/-- Nothing is given at first. -/
theorem has_empty (name : Text) : ({} : Given).has name = false := by
  rw [has, Option.isSome_none, Option.isSome_none, Bool.and_false, ite_self]

/-- The fields that are given with the one of a name, taken from settings. -/
def put (settings : Settings) (given : Given) (name : Text) : Given :=
  if name = depthKey.toList then { given with maxDepth := some settings.maxDepth }
  else if name = strictKey.toList then { given with strict := some settings.strict }
  else given

/-- The fields that are given with one more member. -/
def take (given : Given) (name : Text) (value : Reading) : Except Json.Fault Given :=
  if given.has name then .error (.duplicateField (String.ofList name))
  else if name = depthKey.toList then
    value.word.map fun maxDepth => { given with maxDepth := some maxDepth }
  else if name = strictKey.toList then
    value.boolean.map fun strict => { given with strict := some strict }
  else value.pass.map fun _ => given

/-- Only fields are given. -/
theorem isField_of_has {given : Given} {name : Text} (h : given.has name = true) :
    isField name = true := by
  rw [isField, Bool.or_eq_true, decide_eq_true_eq, decide_eq_true_eq]
  rw [has] at h
  split at h
  · next hdepth => exact .inl hdepth
  · rw [Bool.and_eq_true, decide_eq_true_eq] at h
    exact .inr h.1

/-- A member is taken just when its field is not given already and can be read. -/
theorem take_eq_ok_iff (given after : Given) (name : Text) (value : Reading) :
    given.take name value = .ok after ↔
      given.has name = false ∧ ∃ settings, FieldOf settings name value ∧
        after = put settings given name := by
  cases hhas : given.has name with
  | true => simp [take, hhas]
  | false =>
    simp only [take, hhas, Bool.false_eq_true, if_false, true_and, FieldOf, put]
    split
    · cases value.word with
      | error fault => simp [Except.map]
      | ok maxDepth =>
        constructor
        · exact fun h => ⟨⟨maxDepth, false⟩, rfl, (Except.ok.inj h).symm⟩
        · rintro ⟨settings, hmaxDepth, rfl⟩
          rw [Except.ok.inj hmaxDepth]
          rfl
    · split
      · cases value.boolean with
        | error fault => simp [Except.map]
        | ok strict =>
          constructor
          · exact fun h => ⟨⟨0, strict⟩, rfl, (Except.ok.inj h).symm⟩
          · rintro ⟨settings, hstrict, rfl⟩
            rw [Except.ok.inj hstrict]
            rfl
      · cases value.pass with
        | error fault => simp [Except.map]
        | ok _ =>
          constructor
          · exact fun h => ⟨{}, rfl, (Except.ok.inj h).symm⟩
          · rintro ⟨_, -, rfl⟩
            rfl

/-- A field is given once it is put. -/
theorem has_put (settings : Settings) (given : Given) {name key : Text}
    (hkey : isField key = true) :
    (put settings given name).has key = (name = key || given.has key) := by
  rw [isField, Bool.or_eq_true, decide_eq_true_eq, decide_eq_true_eq] at hkey
  rcases hkey with rfl | rfl
  · by_cases hdepth : name = depthKey.toList
    · simp [put, has, hdepth]
    · by_cases hstrict : name = strictKey.toList <;> simp [put, has, hdepth, hstrict]
  · by_cases hdepth : name = depthKey.toList
    · simp [put, has, hdepth, strictKey_ne_depthKey.symm]
    · by_cases hstrict : name = strictKey.toList <;> simp [put, has, hdepth, hstrict]

/-- A field stands as often in what is left, with the one that is given, as before. -/
theorem count_put (settings : Settings) {given : Given} {name key : Text}
    (hkey : isField key = true) (hnot : given.has name = false) (names : List Text) :
    names.count key + ((put settings given name).has key).toNat =
      (name :: names).count key + (given.has key).toNat := by
  rw [has_put settings given hkey]
  by_cases hname : name = key
  · subst hname
    simp [hnot]
  · simp [hname]

end Given

/-- A member is taken, and then those behind it. -/
theorem ofEntries_more (given : Given) (name : Text) (value : Reading) (rest : Entries) :
    ofEntries given (.more (.sound name) value rest) =
      given.take name value >>= fun given => ofEntries given rest := by
  rw [ofEntries, Given.take, Given.has]
  change (if name = depthKey.toList then _ else _) = _
  by_cases hdepth : name = depthKey.toList
  · subst hdepth
    cases given.maxDepth with
    | some maxDepth => rfl
    | none => cases value.word <;> rfl
  · rw [if_neg hdepth, if_neg hdepth, if_neg hdepth]
    by_cases hstrict : name = strictKey.toList
    · subst hstrict
      cases given.strict with
      | some strict => rfl
      | none => cases value.boolean <;> rfl
    · simp only [hstrict]
      cases value.pass <;> rfl

/-! ### All members -/

section

variable {names : List Text} {parts : List (Spelled Text × Reading)}

/-- Settings are made only of members whose fields stand once at most. -/
theorem count_le_of_ofEntries {given : Given} {settings : Settings} {key : Text}
    (hkey : isField key = true)
    (hparts : List.Forall₂ (fun name part => part.1 = .sound name) names parts)
    (h : ofEntries given (Json.entriesOf parts) = .ok settings) :
    names.count key + (given.has key).toNat ≤ 1 := by
  -- No member changes how often the field is left or given (`count_put`).
  induction hparts generalizing given with
  | nil =>
    rw [List.count_nil, Nat.zero_add]
    exact Bool.toNat_le _
  | @cons name part names parts hname _ ih =>
    obtain ⟨_, value⟩ := part
    subst hname
    rw [Json.entriesOf, List.foldr_cons, ofEntries_more] at h
    cases htake : given.take name value with
    | error fault =>
      rw [htake] at h
      cases h
    | ok after =>
      rw [htake] at h
      obtain ⟨hnot, taken, -, rfl⟩ := (given.take_eq_ok_iff after name value).mp htake
      rw [← Given.count_put taken hkey hnot]
      exact ih h

/-- When every value is one of a field, or is passed over, the only fault is a field that stands
twice. -/
theorem fault_of_ofEntries {given : Given} {fault : Json.Fault}
    (hparts : List.Forall₂ (fun name part => part.1 = .sound name ∧
      ∃ settings, FieldOf settings name part.2) names parts)
    (h : ofEntries given (Json.entriesOf parts) = .error fault) :
    ∃ key, isField key = true ∧ 2 ≤ names.count key + (given.has key).toNat ∧
      fault = .duplicateField (String.ofList key) := by
  induction hparts generalizing given with
  | nil => cases h
  | @cons name part names parts hpart _ ih =>
    obtain ⟨_, value⟩ := part
    obtain ⟨rfl, settings, hvalue⟩ := hpart
    rw [Json.entriesOf, List.foldr_cons, ofEntries_more] at h
    cases hhas : given.has name with
    | true =>
      rw [Given.take, if_pos hhas] at h
      refine ⟨name, Given.isField_of_has hhas, ?_, (Except.error.inj h).symm⟩
      rw [List.count_cons_self, hhas]
      exact Nat.add_le_add_right (Nat.le_add_left 1 _) 1
    | false =>
      rw [(given.take_eq_ok_iff _ name value).mpr ⟨hhas, settings, hvalue, rfl⟩] at h
      obtain ⟨key, hkey, htwice, hfault⟩ := ih h
      rw [Given.count_put settings hkey hhas] at htwice
      exact ⟨key, hkey, htwice, hfault⟩

/-- Fields of settings that stand once at most are all kept. -/
theorem ofEntries_of_fieldOf {settings : Settings} {given : Given}
    (hparts : List.Forall₂ (fun name part => part.1 = .sound name ∧
      FieldOf settings name part.2) names parts)
    (honce : ∀ key, isField key = true → names.count key + (given.has key).toNat ≤ 1) :
    ofEntries given (Json.entriesOf parts) =
      .ok (names.foldl (Given.put settings) given).settings := by
  induction hparts generalizing given with
  | nil => rfl
  | @cons name part names parts hpart _ ih =>
    obtain ⟨_, value⟩ := part
    obtain ⟨rfl, hvalue⟩ := hpart
    have hhas : given.has name = false := by
      by_contra htrue
      rw [Bool.not_eq_false] at htrue
      have htwice := honce name (Given.isField_of_has htrue)
      rw [List.count_cons_self, htrue] at htwice
      exact absurd htwice (by simp)
    rw [Json.entriesOf, List.foldr_cons, ofEntries_more,
      (given.take_eq_ok_iff _ name value).mpr ⟨hhas, settings, hvalue, rfl⟩, List.foldl_cons]
    refine ih fun key hkey => ?_
    rw [Given.count_put settings hkey hhas]
    exact honce key hkey

end

/-- The fields that are put are those whose names stand there. -/
theorem settings_foldl_put (settings : Settings) (names : List Text) (given : Given) :
    (names.foldl (Given.put settings) given).settings =
      ⟨if depthKey.toList ∈ names then settings.maxDepth else given.maxDepth.getD 128,
        if strictKey.toList ∈ names then settings.strict else given.strict.getD false⟩ := by
  induction names generalizing given with
  | nil => simp [Given.settings]
  | cons name names ih =>
    rw [List.foldl_cons, ih]
    simp only [List.mem_cons]
    by_cases hdepth : name = depthKey.toList
    · subst hdepth
      simp [Given.put]
    · by_cases hstrict : name = strictKey.toList
      · subst hstrict
        simp [Given.put, strictKey_ne_depthKey.symm]
      · simp [Given.put, hdepth, hstrict, Ne.symm hdepth, Ne.symm hstrict]

/-- A field stands at most once among fields of settings and members of other names. -/
theorem count_le_of_subperm {settings : Settings} {members : List (Text × Text)} {key : Text}
    (hkey : isField key = true)
    (hfields : (members.filter fun member => isField member.1).Subperm settings.fields) :
    (members.map Prod.fst).count key ≤ 1 := by
  have hnames : (settings.fields.map Prod.fst).Nodup := by
    change [depthKey.toList, strictKey.toList].Nodup
    decide
  have hkept : (members.map Prod.fst).count key =
      (members.filter fun member => isField member.1).countP (Prod.fst · == key) := by
    rw [List.count, List.countP_map, List.countP_filter]
    refine List.countP_congr fun member _ => ?_
    constructor
    · intro hmember
      have hname : member.1 = key := eq_of_beq hmember
      simp [hname, hkey]
    · exact fun hmember => (Bool.and_eq_true_iff.mp hmember).1
  calc (members.map Prod.fst).count key
      = (members.filter fun member => isField member.1).countP (Prod.fst · == key) := hkept
    _ ≤ settings.fields.countP (Prod.fst · == key) := hfields.countP_le _
    _ = (settings.fields.map Prod.fst).count key := by
      rw [List.count, List.countP_map]
      rfl
    _ ≤ 1 := List.nodup_iff_count_le_one.mp hnames key

/-! ### Whole texts -/

/-- Settings are read from a map with any of their fields, in any order and with members of other
names between them. -/
theorem read_of_subperm {settings : Settings} {members : List (Text × Text)} {text : Text}
    (htext : Json.SpellsMap members text) (hvalues : ∀ member ∈ members, Json.IsValue member.2)
    (hfields : (members.filter fun member => isField member.1).Subperm settings.fields) :
    read text = .ok
      ⟨if depthKey.toList ∈ members.map Prod.fst then settings.maxDepth else 128,
        if strictKey.toList ∈ members.map Prod.fst then settings.strict else false⟩ := by
  have hmembers : ∀ member ∈ members, ReadsAs member.2 (FieldOf settings member.1) := by
    intro member hmember
    cases hname : isField member.1 with
    | true =>
      have hkept : member ∈ members.filter fun member => isField member.1 :=
        List.mem_filter.mpr ⟨hmember, hname⟩
      exact readsAs_of_mem_fields (hfields.subset hkept)
    | false => exact readsAs_of_not_isField hname (hvalues member hmember)
  obtain ⟨parts, hparts, hread⟩ := htext.readText hmembers
  have honce : ∀ key, isField key = true →
      (members.map Prod.fst).count key + (({} : Given).has key).toNat ≤ 1 := by
    intro key hkey
    rw [Given.has_empty, Bool.toNat_false, Nat.add_zero]
    exact count_le_of_subperm hkey hfields
  have hentries := ofEntries_of_fieldOf (List.forall₂_map_left_iff.mpr hparts) honce
  rw [settings_foldl_put] at hentries
  exact (hread ofReading).trans hentries

/-- A map in which a field stands twice has a fault, and if every field has a value of its type the
fault is that a field stands twice. -/
theorem read_of_repeated {members : List (Text × Text)} {text key : Text}
    (htext : Json.SpellsMap members text) (hvalues : ∀ member ∈ members, Json.IsValue member.2)
    (hkey : isField key = true) (htwice : 2 ≤ (members.map Prod.fst).count key) :
    ∃ fault, read text = .error fault ∧
      ((∀ member ∈ members, isField member.1 = true → ∃ settings, member ∈ fields settings) →
        ∃ name, isField name = true ∧ 2 ≤ (members.map Prod.fst).count name ∧
          fault = .duplicateField (String.ofList name)) := by
  obtain ⟨parts, hparts, hread⟩ :=
    htext.readText fun member hmember => (hvalues member hmember).readsAs
  cases hresult : ofEntries {} (Json.entriesOf parts) with
  | ok settings =>
    have honce := count_le_of_ofEntries hkey
      (List.forall₂_map_left_iff.mpr (hparts.imp fun _ _ h => h.1)) hresult
    omega
  | error fault =>
    have hfault : read text = .error fault := (hread ofReading).trans hresult
    refine ⟨fault, hfault, fun htyped => ?_⟩
    -- The same text is taken apart again, now that its values are known to fit their fields.
    have hmembers : ∀ member ∈ members,
        ReadsAs member.2 fun reading => ∃ settings, FieldOf settings member.1 reading := by
      intro member hmember
      cases hname : isField member.1 with
      | true =>
        obtain ⟨settings, hfield⟩ := htyped member hmember hname
        exact (readsAs_of_mem_fields hfield).imp fun _ h => ⟨settings, h⟩
      | false =>
        exact (readsAs_of_not_isField hname (hvalues member hmember)).imp fun _ h => ⟨{}, h⟩
    obtain ⟨typed, htyped, hsame⟩ := htext.readText hmembers
    have hresult : ofEntries {} (Json.entriesOf typed) = .error fault :=
      (hsame ofReading).symm.trans hfault
    obtain ⟨name, hname, htwice, rfl⟩ :=
      fault_of_ofEntries (List.forall₂_map_left_iff.mpr htyped) hresult
    rw [Given.has_empty, Bool.toNat_false, Nat.add_zero] at htwice
    exact ⟨name, hname, htwice, rfl⟩

/-- What is made of the text of a file is loaded from the file. -/
theorem load_of_read {files : FileView} {path text : Text} (hfile : files path = .ok text.utf8) :
    load files path = (read text).mapError fun fault =>
      .settings (LoadFault.content path fault).words := by
  rw [load, fromFile, hfile]
  dsimp only
  rw [Json.textOf_utf8]
  cases read text <;> rfl

/-- Settings are loaded from what is written for them. Some of the fields may be left out, the
others may stand in any order and members of other names anywhere between them: the fields that are
left out have their defaults. Wherever a field stands twice nothing is loaded. -/
theorem load_of_members (settings : Settings) (files : FileView) (path : Text) :
    (files path = .ok settings.toJson.print.utf8 → load files path = .ok settings) ∧
    ∀ (members : List (Text × Text)) (text : Text), Json.SpellsMap members text →
      (∀ member ∈ members, Json.IsValue member.2) → files path = .ok text.utf8 →
      ((members.filter fun member => isField member.1).Subperm settings.fields →
        load files path = .ok
          ⟨if depthKey.toList ∈ members.map Prod.fst then settings.maxDepth else 128,
            if strictKey.toList ∈ members.map Prod.fst then settings.strict else false⟩) ∧
      ∀ key, isField key = true → 2 ≤ (members.map Prod.fst).count key →
        ∃ fault, load files path = .error (.settings (LoadFault.content path fault).words) ∧
          ((∀ member ∈ members, isField member.1 = true →
              ∃ settings, member ∈ fields settings) →
            ∃ name, isField name = true ∧ 2 ≤ (members.map Prod.fst).count name ∧
              fault = .duplicateField (String.ofList name)) := by
  refine ⟨fun hfile => ?_, fun members text htext hvalues hfile => ⟨fun hfields => ?_, ?_⟩⟩
  · have hvalues : ∀ member ∈ settings.fields, Json.IsValue member.2 := by
      intro member hmember
      rw [fields, List.mem_cons, List.mem_singleton] at hmember
      rcases hmember with rfl | rfl
      · exact Json.isValue_print _
      · exact Json.isValue_print _
    have htext : Json.SpellsMap settings.fields settings.toJson.print :=
      Json.spellsMap_print [(depthKey.toList, .number (Numeral.ofNat settings.maxDepth.toNat)),
        (strictKey.toList, .boolean settings.strict)]
    have hread := read_of_subperm htext hvalues List.filter_sublist.subperm
    have hdepth : depthKey.toList ∈ settings.fields.map Prod.fst := List.mem_cons_self
    have hstrict : strictKey.toList ∈ settings.fields.map Prod.fst :=
      List.mem_cons_of_mem _ List.mem_cons_self
    rw [if_pos hdepth, if_pos hstrict] at hread
    rw [load_of_read hfile, hread]
    rfl
  · rw [load_of_read hfile, read_of_subperm htext hvalues hfields]
    rfl
  · intro key hkey htwice
    obtain ⟨fault, hread, htyped⟩ := read_of_repeated htext hvalues hkey htwice
    rw [load_of_read hfile, hread]
    exact ⟨fault, rfl, htyped⟩

/-- With one field left out and a list in front of the other, the first has its default. A bound
that stands twice is a fault, wherever the list stands. -/
theorem load_of_members_around_list :
    load (fun _ => .ok (toJson ⟨7, true⟩).print.utf8) ['p'] = .ok ⟨7, true⟩ ∧
      load (fun _ => .ok (Value.map [(['a'], .sequence [.null]),
        (strictKey.toList, .boolean true)]).print.utf8) ['p'] = .ok ⟨128, true⟩ ∧
      load (fun _ => .ok (Value.map [(depthKey.toList, .number (Numeral.ofNat 7)),
        (['a'], .sequence [.null]),
        (depthKey.toList, .number (Numeral.ofNat 8))]).print.utf8) ['p'] =
          .error (.settings (LoadFault.content ['p'] (.duplicateField depthKey)).words) := by
  have hvalues (entries : List (Text × Value)) :
      ∀ member ∈ entries.map fun entry => (entry.1, entry.2.print), Json.IsValue member.2 := by
    intro member hmember
    obtain ⟨entry, -, rfl⟩ := List.mem_map.mp hmember
    exact Json.isValue_print entry.2
  have hprinted (entries : List (Text × Value)) := (load_of_members ⟨7, true⟩
    (fun _ => .ok (Value.map entries).print.utf8) ['p']).2 _ _ (Json.spellsMap_print entries)
      (hvalues entries) rfl
  have hdropped := (hprinted [(['a'], .sequence [.null]), (strictKey.toList, .boolean true)]).1
  have hrepeated := (hprinted [(depthKey.toList, .number (Numeral.ofNat 7)),
    (['a'], .sequence [.null]), (depthKey.toList, .number (Numeral.ofNat 8))]).2 depthKey.toList
  refine ⟨(load_of_members ⟨7, true⟩ _ ['p']).1 rfl, ?_, ?_⟩
  · have hkept : List.Subperm [(strictKey.toList, (Value.boolean true).print)] (fields ⟨7, true⟩) :=
      List.singleton_subperm_iff.mpr (List.mem_cons_of_mem _ List.mem_cons_self)
    exact hdropped hkept
  · obtain ⟨fault, hfault, htyped⟩ := hrepeated (by decide) (by decide)
    have hfields : ∃ name, isField name = true ∧
        2 ≤ [depthKey.toList, ['a'], depthKey.toList].count name ∧
        fault = .duplicateField (String.ofList name) := by
      refine htyped fun member hmember hname => ?_
      simp only [List.map_cons, List.map_nil, List.mem_cons, List.not_mem_nil, or_false] at hmember
      rcases hmember with rfl | rfl | rfl
      · exact ⟨⟨7, true⟩, List.mem_cons_self⟩
      · exact absurd hname (by decide)
      · exact ⟨⟨8, true⟩, List.mem_cons_self⟩
    obtain ⟨name, hname, htwice, rfl⟩ := hfields
    rw [isField, Bool.or_eq_true, decide_eq_true_eq, decide_eq_true_eq] at hname
    rcases hname with rfl | rfl
    · rwa [String.ofList_toList] at hfault
    · exact absurd htwice (by decide)

end LuauAnnotation.Settings
