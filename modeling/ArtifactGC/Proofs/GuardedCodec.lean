import ArtifactGC.Proofs.RecordCodec

/-!
# Records with doubles

JSON has no number for a double that is not finite. A record that holds one is written all the
same, and what is written cannot be read at all; a record whose doubles are finite, and read back
one by one, is read back as it was. Nothing that can be read holds a double that is not finite.
-/

namespace ArtifactGC

/-! ### What is read of lists and maps -/

/-- A traversal that keeps each element or fails at it keeps the list or fails. -/
theorem mapM_guard {α : Type} {f : α → Option α} {p : α → Bool} {as : List α}
    (h : ∀ a ∈ as, f a = if p a then some a else none) :
    as.mapM f = if as.all p then some as else none := by
  induction as with
  | nil => rfl
  | cons a as ih =>
    obtain ⟨hfirst, hrest⟩ := List.forall_mem_cons.mp h
    rw [List.mapM_cons, ih hrest, hfirst]
    cases hp : p a <;> cases has : as.all p <;> simp [hp, has]

/-- A map holds no entries but those that it was made of. -/
theorem KeyMap.mem_of_mem_ofList {β : Type} {es : List (String × β)} {e : String × β}
    (h : e ∈ (KeyMap.ofList es).entries) : e ∈ es := by
  have hfold (es : List (String × β)) (m : KeyMap β)
      (h : e ∈ (es.foldl (fun m e => m.insert e.1 e.2) m).entries) :
      e ∈ es ∨ e ∈ m.entries := by
    induction es generalizing m with
    | nil => exact .inr h
    | cons first es ih =>
      rcases ih (m.insert first.1 first.2) h with hlater | hinserted
      · exact .inl (List.mem_cons_of_mem _ hlater)
      · have hfind := KeyMap.find?_eq_some.mpr hinserted
        rw [KeyMap.find?_insert] at hfind
        split at hfind
        · rename_i hkey
          have hvalue : first.2 = e.2 := Option.some.inj hfind
          rw [Prod.ext hkey hvalue.symm]
          exact .inl List.mem_cons_self
        · exact .inr (KeyMap.find?_eq_some.mp hfind)
  rcases hfold es .empty h with hmem | hnone
  · exact hmem
  · cases hnone

/-- Every item of a list that is read is read from some value. -/
theorem exists_of_ofItems? {α : Type} [JsonCodec α] {js : List Json} {as : List α}
    (h : ofItems? js = some as) : ∀ a ∈ as, ∃ j, ofJson? j = some a := by
  induction js generalizing as with
  | nil =>
    cases h
    intro a ha
    cases ha
  | cons j js ih =>
    simp only [ofItems?, Option.bind_eq_bind, Option.bind_eq_some_iff] at h
    obtain ⟨first, hfirst, rest, hrest, has⟩ := h
    cases has
    intro a ha
    rcases List.mem_cons.mp ha with rfl | ha
    · exact ⟨j, hfirst⟩
    · exact ih hrest a ha

/-- Every value of a map that is read is read from some value. -/
theorem exists_of_ofMembers? {α : Type} [JsonCodec α] {members : List (Option String × Json)}
    {es : List (String × α)} (h : ofMembers? members = some es) :
    ∀ e ∈ es, ∃ j, ofJson? j = some e.2 := by
  induction members generalizing es with
  | nil =>
    cases h
    intro e he
    cases he
  | cons m members ih =>
    obtain ⟨name, j⟩ := m
    simp only [ofMembers?, Option.bind_eq_bind, Option.bind_eq_some_iff] at h
    obtain ⟨key, -, first, hfirst, rest, hrest, hes⟩ := h
    cases hes
    intro e he
    rcases List.mem_cons.mp he with rfl | he
    · exact ⟨j, hfirst⟩
    · exact ih hrest e he

/-! ### Guarded codecs -/

section Guarded

variable [ScalarTexts]

/-- A codec that reads back a value if all its doubles are finite and nothing else, as far as finite
doubles read back, and that reads no other values. -/
structure GuardedCodec (α : Type) [JsonCodec α] (doubles : α → List Double) : Prop where
  /-- A value with finite doubles is read back, any other cannot be read. -/
  ofJson?_toJson (a : α) (h : ∀ d ∈ doubles a, d.IsReadBack) :
    ofJson? (toJson a) = if (doubles a).all (·.isFinite) then some a else none
  /-- Whatever is read has finite doubles. -/
  isFinite_of_ofJson? {j : Json} {a : α} (h : ofJson? j = some a) :
    (doubles a).all (·.isFinite) = true

/-- An exact codec of values without doubles. -/
theorem ExactCodec.guarded {α : Type} [JsonCodec α] [ExactCodec α] :
    GuardedCodec α fun _ => [] where
  ofJson?_toJson a _ := ofJson?_toJson a
  isFinite_of_ofJson? _ := rfl

/-- A double that reads back from its literal does so when it is finite. -/
theorem Double.guardedCodec : GuardedCodec Double fun d => [d] where
  ofJson?_toJson d h := by
    have hread : d.IsReadBack := h d List.mem_cons_self
    by_cases hfinite : d.isFinite = true
    · simp [toJson, ofJson?, hfinite, hread hfinite]
    · simp [toJson, ofJson?, hfinite]
  isFinite_of_ofJson? {j d} h := by
    cases j with
    | number n =>
      obtain ⟨finite, -, rfl⟩ := Option.map_eq_some_iff.mp h
      simp [finite.property]
    | _ => cases h

/-- The codec of a list guards the doubles of all its items. -/
theorem GuardedCodec.list {α : Type} [JsonCodec α] {doubles : α → List Double}
    (h : GuardedCodec α doubles) : GuardedCodec (List α) fun as => as.flatMap doubles where
  ofJson?_toJson as hread := by
    have hitem : ∀ a ∈ as, (ofJson? (toJson a) : Option α) =
        if (doubles a).all (·.isFinite) then some a else none :=
      fun a ha => h.ofJson?_toJson a fun d hd => hread d (List.mem_flatMap_of_mem ha hd)
    rw [ofJson?_list, mapM_guard hitem, List.all_flatMap]
  isFinite_of_ofJson? {j as} hread := by
    cases j with
    | array items =>
      rw [List.all_flatMap, List.all_eq_true]
      intro a ha
      obtain ⟨item, hitem⟩ := exists_of_ofItems? hread a ha
      exact h.isFinite_of_ofJson? hitem
    | _ => cases hread

/-- The codec of a map guards the doubles of all its values. -/
theorem GuardedCodec.keyMap {α : Type} [JsonCodec α] {doubles : α → List Double}
    (h : GuardedCodec α doubles) :
    GuardedCodec (KeyMap α) fun m => m.values.flatMap doubles where
  ofJson?_toJson m hread := by
    have hentry : ∀ e ∈ m.entries, ((ofJson? (toJson e.2) : Option α).map (e.1, ·)) =
        if (doubles e.2).all (·.isFinite) then some e else none := by
      intro e he
      have hvalue : e.2 ∈ m.values := List.mem_map_of_mem he
      rw [h.ofJson?_toJson e.2 fun d hd => hread d (List.mem_flatMap_of_mem hvalue hd)]
      split <;> rfl
    rw [ofJson?_keyMap, mapM_guard hentry]
    simp only [KeyMap.values, List.all_flatMap, List.all_map, Function.comp_def]
    split
    · rw [Option.map_some, KeyMap.ofList_entries]
    · rfl
  isFinite_of_ofJson? {j m} hread := by
    cases j with
    | object members =>
      obtain ⟨es, hes, rfl⟩ := Option.map_eq_some_iff.mp hread
      rw [List.all_flatMap, List.all_eq_true]
      intro a ha
      obtain ⟨e, he, rfl⟩ := List.mem_map.mp ha
      obtain ⟨value, hvalue⟩ := exists_of_ofMembers? hes e (KeyMap.mem_of_mem_ofList he)
      exact h.isFinite_of_ofJson? hvalue
    | _ => cases hread

end Guarded

/-! ### Artifacts and snapshots -/

/-- The doubles of a property value. -/
def PropertyValue.doubles : PropertyValue → List Double
  | .double d => [d]
  | _ => []

/-- The doubles among the properties of an artifact. -/
def Artifact.doubles (a : Artifact) : List Double :=
  (a.properties.values ++ a.customProperties.values).flatMap PropertyValue.doubles

/-- The doubles of a snapshot. -/
def Snapshot.doubles (s : Snapshot) : List Double := s.artifacts.flatMap Artifact.doubles

section Snapshots

variable [ScalarTexts]

/-- The member of a property map is its JSON form, or absent when there are no properties. -/
theorem lookup_nonemptyMember (name : String) (m : KeyMap PropertyValue) (key : String) :
    (nonemptyMember name m).lookup key =
      if key = name then if m.isEmpty then none else some (toJson m) else none := by
  unfold nonemptyMember
  by_cases hempty : m.isEmpty
  · simp [hempty]
  · by_cases h : key = name
    · simp [hempty, h]
    · have hname : (key == name) = false := beq_eq_false_iff_ne.mpr h
      simp [hempty, List.lookup_cons, h, hname]

/-- Only the name of a property map is written. -/
theorem names_nonemptyMember (name : String) (m : KeyMap PropertyValue) :
    ((nonemptyMember name m).map (·.1)).Sublist [name] := by
  unfold nonemptyMember
  split <;> simp

variable [LawfulScalarTexts]

theorem PropertyValue.guardedCodec : GuardedCodec PropertyValue PropertyValue.doubles where
  ofJson?_toJson value h := by
    cases value with
    | double d =>
      have hread := Double.guardedCodec.ofJson?_toJson d h
      change (ofJson? (toJson d)).map PropertyValue.double =
        if ([d].all fun d => d.isFinite) = true then some (PropertyValue.double d) else none
      rw [hread]
      split <;> rfl
    | int n =>
      change (ofJson? (toJson n)).map PropertyValue.int = _
      rw [ofJson?_toJson]
      rfl
    | string s => rfl
    | bool b => rfl
  isFinite_of_ofJson? {j value} h := by
    unfold instJsonCodecPropertyValue at h
    dsimp only at h
    split at h
    · obtain ⟨n, -, rfl⟩ := Option.map_eq_some_iff.mp h
      rfl
    · obtain ⟨d, hd, rfl⟩ := Option.map_eq_some_iff.mp h
      exact Double.guardedCodec.isFinite_of_ofJson? hd
    · obtain ⟨s, -, rfl⟩ := Option.map_eq_some_iff.mp h
      rfl
    · obtain ⟨b, -, rfl⟩ := Option.map_eq_some_iff.mp h
      rfl
    · cases h

/-- Properties are read back from their member, or from its absence when there are none. -/
theorem withDefault_nonempty {m : KeyMap PropertyValue}
    (h : ∀ d ∈ m.values.flatMap PropertyValue.doubles, d.IsReadBack) :
    Json.withDefault .empty (if m.isEmpty then none else some (toJson m)) =
      if (m.values.flatMap PropertyValue.doubles).all (·.isFinite) then some m else none := by
  split
  · rename_i hempty
    have hentries : m = .empty := KeyMap.ext (List.isEmpty_iff.mp hempty)
    rw [hentries]
    rfl
  · exact PropertyValue.guardedCodec.keyMap.ofJson?_toJson m h

/-- Properties that are read have finite doubles, also when their member is absent. -/
theorem isFinite_of_withDefault {field : Option Json} {m : KeyMap PropertyValue}
    (h : Json.withDefault .empty field = some m) :
    (m.values.flatMap PropertyValue.doubles).all (·.isFinite) = true := by
  cases field with
  | none =>
    cases h
    rfl
  | some j => exact PropertyValue.guardedCodec.keyMap.isFinite_of_ofJson? h

theorem Artifact.guardedCodec : GuardedCodec Artifact Artifact.doubles where
  ofJson?_toJson a h := by
    rw [Artifact.doubles, List.flatMap_append] at h
    obtain ⟨hproperties, hcustom⟩ := List.forall_mem_append.mp h
    unfold instJsonCodecArtifact
    dsimp only
    rw [Json.fields?_record (by decide)]
    · simp only [Option.bind_eq_bind, Option.bind_some, List.lookup_append, List.lookup_cons,
        List.lookup_nil, lookup_nonemptyMember, String.reduceBEq, String.reduceEq, if_true,
        if_false, Option.none_or, Option.or_none, Json.required_toJson,
        withDefault_nonempty hproperties, withDefault_nonempty hcustom]
      rw [Artifact.doubles, List.flatMap_append, List.all_append]
      cases (a.properties.values.flatMap PropertyValue.doubles).all (·.isFinite) <;>
        cases (a.customProperties.values.flatMap PropertyValue.doubles).all (·.isFinite) <;> rfl
    · simp only [List.map_append]
      exact .append (.append (.append (.refl _) (names_nonemptyMember _ _))
        (names_nonemptyMember _ _)) (.refl _)
  isFinite_of_ofJson? {j a} h := by
    unfold instJsonCodecArtifact at h
    dsimp only at h
    simp only [Option.bind_eq_bind, Option.bind_eq_some_iff] at h
    obtain ⟨_, _, _, _, _, _, _, _, properties, hproperties, customProperties, hcustom, _, _,
      ha⟩ := h
    cases ha
    rw [Artifact.doubles, List.flatMap_append, List.all_append,
      isFinite_of_withDefault hproperties, isFinite_of_withDefault hcustom]
    rfl

theorem Snapshot.guardedCodec : GuardedCodec Snapshot Snapshot.doubles where
  ofJson?_toJson s h := by
    have hartifacts : ofJson? (toJson s.artifacts) =
        if s.doubles.all (·.isFinite) then some s.artifacts else none :=
      Artifact.guardedCodec.list.ofJson?_toJson s.artifacts h
    unfold instJsonCodecSnapshot
    dsimp only
    rw [Json.fields?_record (by decide) (by simp)]
    simp only [Option.bind_eq_bind, Option.bind_some, List.lookup_cons, List.lookup_nil,
      String.reduceBEq, Json.withDefault, hartifacts, ofJson?_toJson]
    cases s.doubles.all (·.isFinite) <;> rfl
  isFinite_of_ofJson? {j s} h := by
    unfold instJsonCodecSnapshot at h
    dsimp only at h
    simp only [Option.bind_eq_bind, Option.bind_eq_some_iff] at h
    obtain ⟨field, _, artifacts, hartifacts, _, _, _, _, hs⟩ := h
    cases hs
    cases hfield : field "artifacts" with
    | none =>
      rw [hfield] at hartifacts
      cases hartifacts
      rfl
    | some j =>
      rw [hfield] at hartifacts
      exact Artifact.guardedCodec.list.isFinite_of_ofJson? hartifacts

end Snapshots

end ArtifactGC
