import GoGraft.Proofs.FileEdits
import GoGraft.Proofs.Seams

/-!
# Import declarations that get further imports

An import declaration ends in a quote or in a parenthesis, which anything can follow. So what it is can be seen from any
text that begins with its own: two texts that begin with import declarations begin with the same one if they are equal.
A declaration that gets parentheses can become shorter, but its text no longer begins as it did. Every other one that
gets an import becomes longer. Either way the texts of the import declarations never become what they were.
-/

namespace GoGraft

open Grammar Lexeme

/-- An import declaration that can be read ends in one way only. -/
theorem Grammar.Reads.import_unique {left right : List Marked} {more : List Lexeme}
    (hleft : Reads [.decl .imports] left []) (hright : Reads [.decl .imports] right [])
    (hlast : ∀ last ∈ right.getLast?, last.role ≠ .trivia)
    (hlexemes : right.map Marked.lexeme = left.map Marked.lexeme ++ more) : right = left := by
  obtain ⟨added, rfl, -, hadded⟩ := hleft.continue_from hright hlexemes
  cases hend : added.getLast? with
  | none => rw [List.getLast?_eq_none_iff.mp hend, List.append_nil]
  | some last =>
      have hrole := hadded.of_nil.2 last (List.mem_of_getLast? hend)
      exact absurd hrole (hlast last (by rw [List.getLast?_append, hend]; rfl))

namespace Declaration

variable {declaration other : Declaration} {gap rest tail : List Marked} {head : Marked}
  {frames final : List Frame}

theorem ReadAs.import_last (hread : declaration.ReadAs gap head rest tail frames final)
    (hhead : head.kind = .keyword .importWord) :
    ∃ last, rest.getLast? = some last ∧ (last.kind = .string ∨ last.kind = .mark .closeParen) := by
  obtain ⟨specs, layout, hkind⟩ := hread.exists_imports hhead
  obtain ⟨lead, existing, rfl, -, hexisting, -⟩ | ⟨kept, close, indent, rfl, hclose, -⟩ := hread.import_cases hkind
  · obtain ⟨first, others, rfl, -, hlast⟩ := hexisting.exists_ends
    refine ⟨(first :: others).getLast (by simp), ?_, .inl (hlast _ (List.getLast?_eq_some_getLast _))⟩
    rw [List.getLast?_append, List.getLast?_eq_some_getLast (by simp)]
    rfl
  · exact ⟨close, List.getLast?_concat, .inr hclose⟩

/-- An import declaration is cut as it is whatever follows it. -/
theorem ReadAs.import_lexemes (hread : declaration.ReadAs gap head rest tail frames final)
    (hhead : head.kind = .keyword .importWord) (after : Text) :
    Scan.lexemes (declaration.text ++ after) =
      (gap ++ head :: rest).map Marked.lexeme ++ Scan.lexemes (sourceOf tail ++ after) := by
  obtain ⟨last, hlast, hkind⟩ := hread.import_last hhead
  have hcut : last.lexeme.IsCut := hread.cuts.isCut last.lexeme (by
    have hmem := List.mem_of_getLast? hlast
    simp only [List.map_append, List.map_cons, List.mem_append, List.mem_cons]
    exact .inl (.inr (.inr (List.mem_map_of_mem hmem))))
  have hends (c : Char) : last.lexeme.EndsBefore c := by
    obtain hstring | hclose := hkind
    · exact hcut.endsBefore_of_string hstring c
    · exact hcut.endsBefore_of_closeParen hclose c
  have hcuts : Scan.Cuts ((gap ++ head :: rest).map Marked.lexeme) (sourceOf tail ++ after).head? := by
    have hall := hread.cuts
    rw [List.map_append] at hall
    apply (Scan.Cuts.append_iff.mp hall).1.forget.extend
    intro lexeme hlexeme c _
    have hmem : ((gap ++ head :: rest).map Marked.lexeme).getLast? = some last.lexeme := by
      simp [List.getLast?_map, List.getLast?_append, List.getLast?_cons, hlast]
    obtain rfl := Option.some.inj (hmem.symm.trans hlexeme)
    exact hends c
  rw [← Scan.lexemes_append hcuts, source_map_lexeme, hread.text_eq, sourceOf_append, List.append_assoc]

theorem IsRead.kind_eq {after after' : Text} (hread : declaration.IsRead) (hother : other.IsRead)
    (himport : declaration.isImport) (himport' : other.isImport)
    (htext : declaration.text ++ after = other.text ++ after') : declaration.kind = other.kind := by
  obtain ⟨gap, head, rest, tail, frames, final, hread⟩ := hread
  obtain ⟨gap', head', rest', tail', frames', final', hother⟩ := hother
  have hhead := hread.importWord_of_isImport himport
  have hhead' := hother.importWord_of_isImport himport'
  have hlexemes := congrArg Scan.lexemes htext
  rw [hread.import_lexemes hhead, hother.import_lexemes hhead'] at hlexemes
  simp only [List.map_append, List.map_cons, List.append_assoc, List.cons_append] at hlexemes
  obtain ⟨hgap, -, hrest⟩ := @split_first _ (fun lexeme => isLoose lexeme.kind) _ _ _ _ _ _ hlexemes
    hread.isLoose_gap hother.isLoose_gap hread.not_isLoose_head hother.not_isLoose_head
  have hreads := hread.import_reads hhead
  have hreads' := hother.import_reads hhead'
  have hsame : rest = rest' := by
    obtain ⟨more, hmore, -⟩ | ⟨more, hmore, -⟩ := List.append_eq_append_iff.mp hrest
    · exact (hreads.import_unique hreads' hother.not_trivia_last hmore).symm
    · exact hreads'.import_unique hreads hread.not_trivia_last hmore
  have hheads : head = head' := (hread.head_eq_importWord hhead).trans (hother.head_eq_importWord hhead').symm
  have hsection : (Section.mk gap (head :: rest)).kind = (Section.mk gap' (head' :: rest')).kind := by
    simp [Section.kind, hhead, hhead']
  rw [hread.kind_eq, hother.kind_eq, hsection, hsame, hheads]
  exact Structure.kindOf_congr _ hread.gap_loose hother.gap_loose hgap

theorem isGrouped_congr (hkind : declaration.kind = other.kind) : declaration.isGrouped = other.isGrouped := by
  rw [isGrouped, hkind]
  rfl

theorem isExtendable_congr (hkind : declaration.kind = other.kind) :
    declaration.isExtendable = other.isExtendable := by
  rw [isExtendable, isImport, imports, hkind]
  rfl

end Declaration

/-- A further import in a row of import declarations: the first that can take it is written anew, with parentheses, or
there is one more. -/
inductive Extended : List Declaration → List Declaration → Prop where
  | added {lead : List Declaration} {new : Declaration} (hnone : ∀ declaration ∈ lead, ¬ declaration.isExtendable)
      (hnew : new.text ≠ []) : Extended lead (lead ++ [new])
  | grown {front rest : List Declaration} {old new : Declaration}
      (hfront : ∀ declaration ∈ front, ¬ declaration.isExtendable) (hold : old.isExtendable) (hnew : new.text ≠ [])
      (hgrouped : new.isGrouped) (hlonger : old.isGrouped → old.text.length < new.text.length) :
      Extended (front ++ old :: rest) (front ++ new :: rest)

/-- What became of a row of import declarations that got further imports: there are more of them, or the first that
could take imports is longer, or it is of another kind. -/
inductive Drift (start : List Declaration) : List Declaration → Prop where
  | added {more : List Declaration} (hnone : ∀ declaration ∈ start, ¬ declaration.isExtendable)
      (hmore : ∃ declaration ∈ more, declaration.text ≠ []) : Drift start (start ++ more)
  | grown {front rest : List Declaration} {old new : Declaration} (hstart : start = front ++ old :: rest)
      (hfront : ∀ declaration ∈ front, ¬ declaration.isExtendable) (hold : old.isExtendable)
      (hnew : new.isExtendable) (hgrouped : new.isGrouped) (hlonger : old.text.length < new.text.length) :
      Drift start (front ++ new :: rest)
  | turned {front rest rest' : List Declaration} {old new : Declaration} (hstart : start = front ++ old :: rest)
      (hfront : ∀ declaration ∈ front, ¬ declaration.isExtendable) (hold : old.isExtendable)
      (hturned : (¬ old.isGrouped ∧ new.isGrouped) ∨ ¬ new.isExtendable) : Drift start (front ++ new :: rest')

theorem Extended.drift {start next : List Declaration} (hextended : Extended start next) : Drift start next := by
  cases hextended with
  | @added _ new hnone hnew => exact .added hnone ⟨new, by simp, hnew⟩
  | @grown front rest old new hfront hold hnew hgrouped hlonger =>
      by_cases htakes : new.isExtendable
      -- Getting parentheses can make a declaration shorter, so that only its kind tells it from the one before.
      · by_cases hbefore : old.isGrouped
        · exact .grown rfl hfront hold htakes hgrouped (hlonger hbefore)
        · exact .turned rfl hfront hold (.inl ⟨hbefore, hgrouped⟩)
      · exact .turned rfl hfront hold (.inr htakes)

namespace Drift

variable {start lead next : List Declaration}

theorem step (hdrift : Drift start lead) (hextended : Extended lead next) : Drift start next := by
  have hsplit {front front' rest rest' : List Declaration} {old old' : Declaration}
      (hlead : front ++ old :: rest = front' ++ old' :: rest')
      (hfront : ∀ declaration ∈ front, ¬ declaration.isExtendable)
      (hfront' : ∀ declaration ∈ front', ¬ declaration.isExtendable) (hold : old.isExtendable)
      (hold' : old'.isExtendable) : front = front' ∧ old = old' ∧ rest = rest' :=
    @split_first _ (fun declaration => !declaration.isExtendable) _ _ _ _ _ _ hlead (by simpa using hfront)
      (by simpa using hfront') (by simpa using hold) (by simpa using hold')
  cases hdrift with
  | @added more hnone hmore =>
      generalize hlead : start ++ more = lead at hextended
      cases hextended with
      | @added _ new hfree hnew =>
          rw [← hlead, List.append_assoc]
          exact .added hnone ⟨new, by simp, hnew⟩
      | @grown front rest old new hfront hold hnew hgrouped hlonger =>
          obtain ⟨between, rfl, -⟩ := @split_after_head _ (fun declaration => !declaration.isExtendable) _ _ _ _ _ hlead
            (by simpa using hnone) (by simpa using hold)
          rw [List.append_assoc]
          exact .added hnone ⟨new, by simp, hnew⟩
  | @grown front rest old new hstart hfront hold hnew hgrouped hlonger =>
      generalize hlead : front ++ new :: rest = lead at hextended
      cases hextended with
      | added hfree => exact absurd hnew (hfree new (by simp [← hlead]))
      | @grown front' rest' old' last hfront' hold' hlast hgrouped' hlonger' =>
          obtain ⟨rfl, rfl, rfl⟩ := hsplit hlead hfront hfront' hnew hold'
          by_cases htakes : last.isExtendable
          · exact .grown hstart hfront hold htakes hgrouped' (Nat.lt_trans hlonger (hlonger' hgrouped))
          · exact .turned hstart hfront hold (.inr htakes)
  | @turned front rest rest' old new hstart hfront hold hturned =>
      generalize hlead : front ++ new :: rest' = lead at hextended
      cases hextended with
      | added =>
          rw [← hlead, List.append_assoc, List.cons_append]
          exact .turned hstart hfront hold hturned
      | @grown front' rest'' old' last hfront' hold' hlast hgrouped' hlonger' =>
          by_cases htakes : new.isExtendable
          · obtain ⟨rfl, rfl, rfl⟩ := hsplit hlead hfront hfront' htakes hold'
            obtain ⟨hsingle, -⟩ := hturned.resolve_right (absurd htakes)
            exact .turned hstart hfront hold (.inl ⟨hsingle, hgrouped'⟩)
          -- Once the declaration takes no more imports, they go to later ones, and it stays as it is.
          · have hnone : ∀ declaration ∈ front ++ [new], ¬ declaration.isExtendable :=
              List.forall_mem_append.mpr ⟨hfront, List.forall_mem_singleton.mpr htakes⟩
            have hlead' : (front ++ [new]) ++ rest' = front' ++ old' :: rest'' := by simpa using hlead
            obtain ⟨between, rfl, -⟩ := @split_after_head _ (fun declaration => !declaration.isExtendable) _ _ _ _ _
              hlead' (by simpa using hnone) (by simpa using hold')
            rw [List.append_assoc, List.append_assoc, List.singleton_append]
            exact .turned hstart hfront hold hturned

/-- Import declarations that got further imports are not the beginning of any text that began with those before, if
what follows them is no shorter. -/
theorem text_ne {after after' : Text} (hdrift : Drift start lead) (hstart : ∀ declaration ∈ start, declaration.IsRead)
    (hlead : ∀ declaration ∈ lead, declaration.IsRead) (himports : ∀ declaration ∈ start, declaration.isImport)
    (himports' : ∀ declaration ∈ lead, declaration.isImport) (hafter : after.length ≤ after'.length) :
    start.flatMap Declaration.text ++ after ≠ lead.flatMap Declaration.text ++ after' := by
  intro htext
  cases hdrift with
  | @added more hnone hmore =>
      obtain ⟨declaration, hmem, hne⟩ := hmore
      have hlong : 0 < (more.flatMap Declaration.text).length := by
        obtain ⟨c, others, hc⟩ := List.exists_cons_of_ne_nil hne
        exact List.length_pos_of_mem (List.mem_flatMap.mpr ⟨declaration, hmem, hc ▸ List.mem_cons_self⟩)
      have hlength := congrArg List.length htext
      simp only [List.flatMap_append, List.length_append] at hlength
      omega
  | @grown front rest old new hsplit hfront hold hnew hgrouped hlonger =>
      have hlength := congrArg List.length htext
      simp only [hsplit, List.flatMap_append, List.flatMap_cons, List.length_append] at hlength
      omega
  | @turned front rest rest' old new hsplit hfront hold hturned =>
      subst hsplit
      simp only [List.flatMap_append, List.flatMap_cons, List.append_assoc] at htext
      have hkind := (hstart old (by simp)).kind_eq (hlead new (by simp)) (himports old (by simp))
        (himports' new (by simp)) (List.append_cancel_left htext)
      obtain ⟨hsingle, hgrouped⟩ | hnot := hturned
      · exact hsingle ((Declaration.isGrouped_congr hkind).trans hgrouped)
      · exact hnot ((Declaration.isExtendable_congr hkind).symm.trans hold)

end Drift

end GoGraft
