import GoGraft.Proofs.EditSteps

/-!
# Declarations that a batch leaves alone

A batch of changes keeps the declarations of a file in their order and puts new ones between them. Which of them it
can write anew shows in their structure, so that all others are the same afterwards, text and all.
-/

namespace GoGraft

open Relation

/-- The declarations of a file that no change of a batch can be about. -/
def Declaration.IsUnrelated (changes : List Change) (declaration : Declaration) : Prop :=
  match declaration.kind with
  | .function _ | .values _ => True
  | .imports specs _ => ∃ spec ∈ specs, spec.path = SourceFile.preamblePath
  | .types specs => ∀ spec ∈ specs, ∀ field, Change.addField spec.name field ∉ changes

theorem Declaration.IsUnrelated.not_rewritten {changes : List Change} {old new : Declaration}
    (hunrelated : old.IsUnrelated changes) : ¬ Rewritten changes old new := by
  intro hrewritten
  unfold IsUnrelated at hunrelated
  cases hrewritten with
  | @field name field spec _ _ hchange hspec hname =>
      unfold typeSpecs at hspec
      split at hspec
      · rename_i specs hkind
        rw [hkind] at hunrelated
        rw [← hname] at hchange
        exact hunrelated spec hspec field hchange
      · cases hspec
  | imports _ _ hkind hextendable =>
      rw [hkind] at hunrelated
      obtain ⟨spec, hspec, hpath⟩ := hunrelated
      exact hextendable spec hspec hpath

theorem Declaration.IsUnrelated.eq_of_rewritten {changes : List Change} {old new : Declaration}
    (hunrelated : old.IsUnrelated changes) (hrewritten : ReflTransGen (Rewritten changes) old new) : new = old := by
  induction hrewritten with
  | refl => rfl
  | tail _ hlast ih =>
      rw [ih] at hlast
      exact absurd hlast hunrelated.not_rewritten

/-- The places of the declarations of a file in a file that a batch has led to. -/
structure Traced (changes : List Change) (file final : SourceFile) (place : Nat → Nat) : Prop where
  header : final.header = file.header
  package : final.package = file.package
  trailer : final.trailer = file.trailer
  strictMono : StrictMono place
  kept : ∀ i old, file.declarations[i]? = some old →
    ∃ new, final.declarations[place i]? = some new ∧ ReflTransGen (Rewritten changes) old new
  added : ∀ j new, final.declarations[j]? = some new → (∀ i < file.declarations.length, place i ≠ j) →
    ∃ first, IsNew changes first ∧ ReflTransGen (Rewritten changes) first new

namespace Traced

variable {changes : List Change} {file middle final : SourceFile}

theorem refl (file : SourceFile) : Traced changes file file id where
  header := rfl
  package := rfl
  trailer := rfl
  strictMono := strictMono_id
  kept i old hold := ⟨old, hold, .refl⟩
  added j new hnew houtside := by
    obtain ⟨hlt, -⟩ := List.getElem?_eq_some_iff.mp hnew
    exact absurd rfl (houtside j hlt)

theorem trans {place place' : Nat → Nat} (hfirst : Traced changes file middle place)
    (hsecond : Traced changes middle final place') : Traced changes file final (place' ∘ place) where
  header := hsecond.header.trans hfirst.header
  package := hsecond.package.trans hfirst.package
  trailer := hsecond.trailer.trans hfirst.trailer
  strictMono := hsecond.strictMono.comp hfirst.strictMono
  kept i old hold := by
    obtain ⟨next, hnext, hrewritten⟩ := hfirst.kept i old hold
    obtain ⟨new, hnew, hagain⟩ := hsecond.kept (place i) next hnext
    exact ⟨new, hnew, hrewritten.trans hagain⟩
  added j new hnew houtside := by
    by_cases hinside : ∃ k < middle.declarations.length, place' k = j
    · obtain ⟨k, hk, rfl⟩ := hinside
      obtain ⟨new', hnew', hagain⟩ := hsecond.kept k _ (List.getElem?_eq_getElem hk)
      obtain rfl := Option.some.inj (hnew.symm.trans hnew')
      obtain ⟨first, hisNew, hrewritten⟩ := hfirst.added k _ (List.getElem?_eq_getElem hk)
        fun i hi heq => houtside i hi (congrArg place' heq)
      exact ⟨first, hisNew, hrewritten.trans hagain⟩
    · exact hsecond.added j new hnew fun k hk heq => hinside ⟨k, hk, heq⟩

/-- The places behind a declaration that is inserted. -/
def shift (index i : Nat) : Nat :=
  if i < index then i else i + 1

theorem strictMono_shift (index : Nat) : StrictMono (shift index) := by
  intro i j hlt
  unfold shift
  split <;> split <;> omega

theorem insert (index : Nat) {declaration : Declaration} (hnew : IsNew changes declaration) :
    Traced changes file (file.insert index declaration) (shift index) where
  header := rfl
  package := rfl
  trailer := rfl
  strictMono := strictMono_shift index
  kept i old hold := by
    obtain ⟨hi, -⟩ := List.getElem?_eq_some_iff.mp hold
    refine ⟨old, ?_, .refl⟩
    unfold SourceFile.insert shift
    split
    · rename_i hlt
      rw [List.getElem?_append_left (by simp; omega), List.getElem?_take_of_lt hlt, hold]
    · rename_i hge
      have hlength : (file.declarations.take index).length = index := by
        rw [List.length_take]
        omega
      rw [List.getElem?_append_right (by omega), hlength, Nat.succ_sub (by omega), List.getElem?_cons_succ,
        List.getElem?_drop, Nat.add_sub_cancel' (by omega), hold]
  added j new hget houtside := by
    suffices hsame : new = declaration from ⟨declaration, hnew, hsame ▸ .refl⟩
    have hlength : (file.insert index declaration).declarations.length = file.declarations.length + 1 := by
      simp only [SourceFile.insert, List.length_append, List.length_cons, List.length_take, List.length_drop]
      omega
    obtain ⟨hj, -⟩ := List.getElem?_eq_some_iff.mp hget
    -- The only place that no old declaration has is that of the new one.
    have hplace : j = min index file.declarations.length := by
      by_contra hne
      obtain hlt | hgt := Nat.lt_or_gt_of_ne hne
      · exact houtside j (by omega) (by unfold shift; split <;> omega)
      · exact houtside (j - 1) (by omega) (by unfold shift; split <;> omega)
    have hself : (file.insert index declaration).declarations[j]? = some declaration := by
      unfold SourceFile.insert
      rw [hplace, ← List.length_take, List.getElem?_append_right (Nat.le_refl _), Nat.sub_self,
        List.getElem?_cons_zero]
    exact Option.some.inj (hget.symm.trans hself)

theorem replace {index : Nat} {old new : Declaration} (hold : file.declarations[index]? = some old)
    (hrewritten : Rewritten changes old new) : Traced changes file (file.replace index new) id where
  header := rfl
  package := rfl
  trailer := rfl
  strictMono := strictMono_id
  kept i other hother := by
    by_cases hi : index = i
    · subst hi
      obtain ⟨hlt, -⟩ := List.getElem?_eq_some_iff.mp hold
      obtain rfl := Option.some.inj (hold.symm.trans hother)
      exact ⟨new, List.getElem?_set_self hlt, .single hrewritten⟩
    · exact ⟨other, (List.getElem?_set_ne hi).trans hother, .refl⟩
  added j other hother houtside := by
    obtain ⟨hlt, -⟩ := List.getElem?_eq_some_iff.mp hother
    have hlength : (file.replace index new).declarations.length = file.declarations.length := List.length_set
    exact absurd rfl (houtside j (hlength ▸ hlt))

theorem of_edited (hedited : Edited changes file final) : ∃ place, Traced changes file final place := by
  cases hedited with
  | insert index hnew => exact ⟨_, insert index hnew⟩
  | replace hold hrewritten => exact ⟨_, replace hold hrewritten⟩

theorem of_edits (hedits : ReflTransGen (Edited changes) file final) : ∃ place, Traced changes file final place := by
  induction hedits with
  | refl => exact ⟨id, refl file⟩
  | tail _ hlast ih =>
      obtain ⟨place, hfirst⟩ := ih
      obtain ⟨place', hsecond⟩ := of_edited hlast
      exact ⟨_, hfirst.trans hsecond⟩

end Traced

/-- A batch of changes keeps what stands before and after the declarations, and it keeps the declarations in their
order: each is the same, or was written anew for changes of the batch, and those that no change can be about are the
same. All others come from one that was written for a change of the batch, which adds a type or a declaration of
imports. -/
theorem SourceFile.applyAll_untouched {file final : SourceFile} {changes : List Change} {settings : Settings}
    {report : Report} (happly : file.applyAll changes settings = ⟨final, .ok report⟩) :
    final.header = file.header ∧ final.package = file.package ∧ final.trailer = file.trailer ∧
      ∃ place : Nat → Nat, StrictMono place ∧
        (∀ i old, file.declarations[i]? = some old → ∃ new, final.declarations[place i]? = some new ∧
          ReflTransGen (Rewritten changes) old new ∧ (old.IsUnrelated changes → new = old)) ∧
        ∀ j new, final.declarations[j]? = some new → (∀ i < file.declarations.length, place i ≠ j) →
          ∃ first, IsNew changes first ∧ ReflTransGen (Rewritten changes) first new := by
  obtain ⟨place, htraced⟩ := Traced.of_edits ((leads_of_performAll (applyAll_eq_ok happly)).edited)
  refine ⟨htraced.header, htraced.package, htraced.trailer, place, htraced.strictMono, ?_, htraced.added⟩
  intro i old hold
  obtain ⟨new, hnew, hrewritten⟩ := htraced.kept i old hold
  exact ⟨new, hnew, hrewritten, fun hunrelated => hunrelated.eq_of_rewritten hrewritten⟩

theorem SourceFile.applyAll_untouched_preamble :
    let text := "package a\n\nimport \"C\"\n\ntype A struct \x7b\n\x7d\n\nfunc f() \x7b\n\x7d\n".toList
    let changes : List Change :=
      [.addField ['A'] ⟨['T'], .qualified "time".toList "Time".toList, none, none⟩,
        .addType (.record ['B']) (.before ['f'])]
    ∃ file final report, SourceFile.parse text = .ok file ∧
      file.applyAll changes .standard = ⟨final, .ok report⟩ ∧ report.applied = 2 ∧
      ∃ place : Nat → Nat, StrictMono place ∧ ∀ i ∈ [0, 2], ∃ old : Declaration,
        file.declarations[i]? = some old ∧ final.declarations[place i]? = some old := by
  repeat rw [String.toList_ofList]
  intro text changes
  have hrun : ((SourceFile.parse text).toOption.bind fun file =>
      (file.applyAll changes .standard).toOption.map fun result =>
        (result.2.applied, [0, 2].map fun i => file.declarations[i]?.map Declaration.kind)) =
      some (2, [some (.imports [⟨none, ['C'], "\"C\"".toList⟩] (.single 2 9 12)), some (.function ['f'])]) := by
    decide
  obtain ⟨file, hfile, hrun⟩ := Option.bind_eq_some_iff.mp hrun
  obtain ⟨⟨final, report⟩, hfinal, hrun⟩ := Option.map_eq_some_iff.mp hrun
  obtain ⟨happlied, hkinds⟩ := Prod.mk.inj hrun
  obtain ⟨hfirst, hkinds⟩ := List.cons.inj hkinds
  obtain ⟨hthird, -⟩ := List.cons.inj hkinds
  obtain ⟨first, hfirst, hfirstKind⟩ := Option.map_eq_some_iff.mp hfirst
  obtain ⟨third, hthird, hthirdKind⟩ := Option.map_eq_some_iff.mp hthird
  have happly := Attempt.eq_of_toOption hfinal
  obtain ⟨-, -, -, place, hplace, hkept, -⟩ := applyAll_untouched happly
  refine ⟨file, final, report, eq_ok_of_toOption hfile, happly, happlied, place, hplace, ?_⟩
  intro i hi
  obtain rfl | rfl : i = 0 ∨ i = 2 := by simpa using hi
  · obtain ⟨new, hnew, -, hsame⟩ := hkept 0 first hfirst
    obtain rfl := hsame (by simp [Declaration.IsUnrelated, hfirstKind, preamblePath])
    exact ⟨new, hfirst, hnew⟩
  · obtain ⟨new, hnew, -, hsame⟩ := hkept 2 third hthird
    obtain rfl := hsame (by simp [Declaration.IsUnrelated, hthirdKind])
    exact ⟨new, hthird, hnew⟩

end GoGraft
