import GoGraft.File.Lookup

/-!
# Types by name

A type is looked up in a table of locations. What is found is the first specification of that name, in the order of
the declarations, so that a lookup depends only on the list of all specifications.
-/

namespace GoGraft

theorem lookup_enter {α : Type} (table : List (Text × α)) (key name : Text) (value : α) :
    (enter table key value).lookup name =
      (table.lookup name).or (if name = key then some value else none) := by
  unfold enter
  split
  · rename_i old hold
    by_cases hname : name = key
    · rw [hname, hold, Option.some_or]
    · rw [if_neg hname, Option.or_none]
  · rename_i hnone
    rw [List.lookup_append, List.lookup_cons, List.lookup_nil]
    by_cases hname : name = key
    · simp [hname]
    · have hbeq : (name == key) = false := beq_eq_false_iff_ne.mpr hname
      simp [hname, hbeq]

theorem lookup_foldl_enter {α β : Type} (key : β → Text) (value : β → α) (entries : List β)
    (table : List (Text × α)) (name : Text) :
    (entries.foldl (fun table entry => enter table (key entry) (value entry)) table).lookup name =
      (table.lookup name).or ((entries.find? fun entry => key entry = name).map value) := by
  induction entries generalizing table with
  | nil => simp
  | cons entry entries ih =>
      rw [List.foldl_cons, ih, lookup_enter, Option.or_assoc, List.find?_cons]
      by_cases hname : name = key entry
      · simp [hname]
      · simp [hname, Ne.symm hname]

/-- What a type specification says apart from where it stands: its name and, for a struct type, its fields. -/
def TypeSpec.summary (spec : TypeSpec) : Text × Option (List Field) :=
  (spec.name, spec.record?.map Record.fields)

/-- A type at no particular place: its fields, or the type as it was written. -/
def TypeBody.unplaced : TypeBody → TypeBody
  | .record ⟨fields, _, _⟩ => .record ⟨fields, 0, none⟩
  | .expr type => .expr type

/-- A type specification at no particular place. -/
def TypeSpec.unplaced (spec : TypeSpec) : TypeSpec :=
  ⟨spec.name, spec.isAlias, spec.body.unplaced⟩

theorem TypeSpec.summary_unplaced (spec : TypeSpec) : spec.unplaced.summary = spec.summary := by
  obtain ⟨name, isAlias, body⟩ := spec
  cases body <;> rfl

namespace SourceFile

variable (file : SourceFile)

/-- All type specifications of a file, in order. -/
def allTypeSpecs : List TypeSpec :=
  file.declarations.flatMap Declaration.typeSpecs

theorem map_snd_typeSpecs : file.typeSpecs.map Prod.snd = file.allTypeSpecs := by
  unfold typeSpecs allTypeSpecs
  rw [List.map_flatMap]
  calc _ = file.declarations.zipIdx.flatMap (fun entry => entry.1.typeSpecs) := by
        congr 1
        funext entry
        rw [List.map_map]
        exact List.zipIdx_map_fst 0 entry.1.typeSpecs
    _ = (file.declarations.zipIdx.map Prod.fst).flatMap Declaration.typeSpecs := by
        rw [List.flatMap_map]
    _ = file.declarations.flatMap Declaration.typeSpecs := by rw [List.zipIdx_map_fst]

theorem typeSpec?_of_mem {location : TypeLocation} {spec : TypeSpec}
    (hmem : (location, spec) ∈ file.typeSpecs) : file.typeSpec? location = some spec := by
  obtain ⟨⟨declaration, i⟩, hdeclaration, hmem⟩ := List.mem_flatMap.mp hmem
  obtain ⟨⟨spec', j⟩, hspec, heq⟩ := List.mem_map.mp hmem
  obtain ⟨rfl, rfl⟩ := Prod.mk.inj heq
  have hi : file.declarations[i]? = some declaration := List.mem_zipIdx_iff_getElem?.mp hdeclaration
  have hj : declaration.typeSpecs[j]? = some spec' := List.mem_zipIdx_iff_getElem?.mp hspec
  simp [typeSpec?, hi, hj]

theorem typeLocation?_eq (name : Text) :
    file.typeLocation? name = (file.typeSpecs.find? (·.2.name = name)).map Prod.fst := by
  have htable := lookup_foldl_enter (fun entry : TypeLocation × TypeSpec => entry.2.name) Prod.fst
    file.typeSpecs [] name
  rw [List.lookup_nil, Option.none_or] at htable
  exact htable

theorem exists_of_find?_zipIdx {α : Type} {l : List α} {p : α → Bool} {a : α} {index : Nat}
    (hfind : l.zipIdx.find? (fun entry => p entry.1) = some (a, index)) :
    ∃ before after, l = before ++ a :: after ∧ index = before.length ∧ p a ∧ ∀ other ∈ before, ¬ p other := by
  obtain ⟨ha, before, after, hsplit, hbefore⟩ := List.find?_eq_some_iff_append.mp hfind
  refine ⟨before.map Prod.fst, after.map Prod.fst, ?_, ?_, ha, ?_⟩
  · have hmap := congrArg (List.map Prod.fst) hsplit
    rwa [List.zipIdx_map_fst, List.map_append, List.map_cons] at hmap
  · have hget : l.zipIdx[before.length]? = some (a, index) := by
      rw [hsplit, List.getElem?_append_right (Nat.le_refl _), Nat.sub_self, List.getElem?_cons_zero]
    rw [List.getElem?_zipIdx] at hget
    obtain ⟨other, -, hother⟩ := Option.map_eq_some_iff.mp hget
    rw [List.length_map, ← (Prod.mk.inj hother).2, Nat.zero_add]
  · intro other hother
    obtain ⟨entry, hentry, rfl⟩ := List.mem_map.mp hother
    simpa using hbefore entry hentry

theorem exists_of_find?_typeSpecs {declarations : List Declaration} {start : Nat} {name : Text}
    {location : TypeLocation} {spec : TypeSpec}
    (hfind : ((declarations.zipIdx start).flatMap fun (declaration, i) =>
      declaration.typeSpecs.zipIdx.map fun (spec, j) => (TypeLocation.mk i j, spec)).find? (·.2.name = name) =
        some (location, spec)) :
    ∃ earlier old later before others, declarations = earlier ++ old :: later ∧
      location = ⟨start + earlier.length, before.length⟩ ∧ old.typeSpecs = before ++ spec :: others ∧
      spec.name = name ∧ ∀ other ∈ earlier.flatMap Declaration.typeSpecs ++ before, other.name ≠ name := by
  induction declarations generalizing start with
  | nil => cases hfind
  | cons declaration declarations ih =>
      rw [List.zipIdx_cons, List.flatMap_cons, List.find?_append] at hfind
      obtain hfirst | ⟨hnone, hrest⟩ := Option.or_eq_some_iff.mp hfind
      · rw [List.find?_map] at hfirst
        obtain ⟨⟨found, index⟩, hfound, hlocated⟩ := Option.map_eq_some_iff.mp hfirst
        obtain ⟨rfl, rfl⟩ := Prod.mk.inj hlocated
        obtain ⟨before, others, hspecs, rfl, hname, hbefore⟩ :=
          @exists_of_find?_zipIdx _ _ (fun spec : TypeSpec => spec.name = name) _ _ hfound
        exact ⟨[], declaration, declarations, before, others, rfl, rfl, hspecs, by simpa using hname,
          by simpa using hbefore⟩
      · obtain ⟨earlier, old, later, before, others, rfl, rfl, hspecs, hname, hbefore⟩ := ih hrest
        refine ⟨declaration :: earlier, old, later, before, others, rfl, ?_, hspecs, hname, ?_⟩
        · rw [List.length_cons, Nat.add_assoc, Nat.add_comm 1]
        · rw [List.flatMap_cons, List.append_assoc]
          refine List.forall_mem_append.mpr ⟨?_, hbefore⟩
          intro other hother
          rw [← List.zipIdx_map_fst 0 declaration.typeSpecs] at hother
          obtain ⟨⟨_, index⟩, hentry, rfl⟩ := List.mem_map.mp hother
          simpa using List.find?_eq_none.mp hnone (⟨start, index⟩, _) (List.mem_map_of_mem hentry)

/-- Where the first type of a name stands: its declaration, and the specifications before and after it. -/
theorem exists_of_typeLocation? {name : Text} {location : TypeLocation}
    (hlocation : file.typeLocation? name = some location) :
    ∃ earlier old later before spec others, file.declarations = earlier ++ old :: later ∧
      location = ⟨earlier.length, before.length⟩ ∧ old.typeSpecs = before ++ spec :: others ∧ spec.name = name ∧
      ∀ other ∈ earlier.flatMap Declaration.typeSpecs ++ before, other.name ≠ name := by
  rw [typeLocation?_eq] at hlocation
  obtain ⟨⟨found, spec⟩, hfind, rfl⟩ := Option.map_eq_some_iff.mp hlocation
  obtain ⟨earlier, old, later, before, others, hsplit, hfound, hspecs⟩ := exists_of_find?_typeSpecs hfind
  rw [Nat.zero_add] at hfound
  exact ⟨earlier, old, later, before, spec, others, hsplit, hfound, hspecs⟩

theorem hasType_eq (name : Text) : file.hasType name = file.allTypeSpecs.any (·.name = name) := by
  rw [hasType, typeLocation?_eq, Option.isSome_map, List.isSome_find?, ← map_snd_typeSpecs, List.any_map]
  rfl

theorem find?_allTypeSpecs (name : Text) :
    file.allTypeSpecs.find? (·.name = name) = (file.typeLocation? name).bind file.typeSpec? := by
  rw [← map_snd_typeSpecs, List.find?_map, typeLocation?_eq]
  change (file.typeSpecs.find? (·.2.name = name)).map Prod.snd = _
  cases hfind : file.typeSpecs.find? (·.2.name = name) with
  | none => rfl
  | some entry =>
      have hmem : (entry.1, entry.2) ∈ file.typeSpecs := List.mem_of_find?_eq_some hfind
      simp [file.typeSpec?_of_mem hmem]

theorem record?_eq (name : Text) :
    file.record? name = (file.allTypeSpecs.find? (·.name = name)).bind TypeSpec.record? := by
  rw [find?_allTypeSpecs]
  unfold record? recordLocation?
  cases file.typeLocation? name with
  | none => rfl
  | some location =>
      cases hspec : file.typeSpec? location with
      | none => simp [hspec]
      | some spec => cases hrecord : spec.record? <;> simp [hspec, hrecord]

end SourceFile

end GoGraft
