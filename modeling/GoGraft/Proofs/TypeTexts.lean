import GoGraft.Proofs.SpacedTypes

/-!
# Type expressions as texts

A type expression whose leaves are identifiers is written so that the same expression is read back, and so that the
expression alone gives its lexemes. The one exception is a map type in the key of another, which is not read at all.
-/

namespace GoGraft

open Lexeme

namespace TypeExpr

/-- The leaves are identifiers, alone or selected from a package, and no key of a map type has a map type in it. -/
def isSimple : TypeExpr → Bool
  | pointer target => target.isSimple
  | slice element => element.isSimple
  | mapping key value => !key.hasMapping && key.isSimple && value.isSimple
  | qualified package name => isIdentifier package && isIdentifier name
  | verbatim text => isIdentifier text

theorem isSimple_mapping {key value : TypeExpr} (hsimple : (mapping key value).isSimple) :
    key.hasMapping = false ∧ key.isSimple ∧ value.isSimple := by
  simpa [isSimple, and_assoc] using hsimple

theorem isSimple_qualified {package name : Text} (hsimple : (qualified package name).isSimple) :
    isIdentifier package ∧ isIdentifier name := by
  simpa [isSimple] using hsimple

end TypeExpr

namespace Text

theorem not_isDigit_of_isLetter {c : Char} (hletter : isLetter c) : ¬ c.isDigit := by
  intro hdigit
  have hrange := isDigit_toNat hdigit
  rw [isLetter, if_pos (by omega)] at hletter
  have halpha := isAlpha_toNat hletter
  omega

end Text

namespace TypeExpr

theorem not_isSpace_render {type : TypeExpr} (hsimple : type.isSimple) : ∀ c ∈ type.render, ¬ Text.isSpace c := by
  induction type with
  | pointer target ih => exact List.forall_mem_cons.mpr ⟨by decide, ih hsimple⟩
  | slice element ih =>
      exact List.forall_mem_cons.mpr ⟨by decide, List.forall_mem_cons.mpr ⟨by decide, ih hsimple⟩⟩
  | mapping key value ihKey ihValue =>
      obtain ⟨-, hkey, hvalue⟩ := isSimple_mapping hsimple
      have hopen : "map[".toList.all (!Text.isSpace ·) := by decide
      have hword : ∀ c ∈ "map[".toList, ¬ Text.isSpace c := fun c hc => by
        simpa using List.all_eq_true.mp hopen c hc
      refine List.forall_mem_append.mpr ⟨List.forall_mem_append.mpr ⟨hword, ihKey hkey⟩, ?_⟩
      exact List.forall_mem_cons.mpr ⟨by decide, ihValue hvalue⟩
  | qualified package name =>
      obtain ⟨hpackage, hname⟩ := isSimple_qualified hsimple
      refine List.forall_mem_append.mpr ⟨not_isSpace_of_isIdentifier hpackage, ?_⟩
      exact List.forall_mem_cons.mpr ⟨by decide, not_isSpace_of_isIdentifier hname⟩
  | verbatim text => exact not_isSpace_of_isIdentifier hsimple

theorem head_render {type : TypeExpr} (hsimple : type.isSimple) :
    ∃ c rest, type.render = c :: rest ∧ (c = '*' ∨ c = '[' ∨ Text.isLetter c ∨ c = '_') := by
  cases type with
  | pointer target => exact ⟨'*', _, rfl, .inl rfl⟩
  | slice element => exact ⟨'[', _, rfl, .inr (.inl rfl)⟩
  | mapping key value => exact ⟨'m', _, rfl, .inr (.inr (.inl (by decide)))⟩
  | qualified package name =>
      obtain ⟨c, rest, rfl, hc, -⟩ := isIdentifier_cases (isSimple_qualified hsimple).1
      exact ⟨c, _, rfl, .inr (.inr hc)⟩
  | verbatim text =>
      obtain ⟨c, rest, rfl, hc, -⟩ := isIdentifier_cases hsimple
      exact ⟨c, _, rfl, .inr (.inr hc)⟩

theorem isSelector_of_isIdentifier {name : Text} (hname : isIdentifier name) : isSelector name := by
  have hne : name ≠ [] := by
    rintro rfl
    cases hname
  rw [isSelector, Text.splitAt_of_not_mem (not_mem_of_isIdentifier hname (by decide) (by decide))]
  simp [hne, hname]

theorem isNamed_of_isSimple {type : TypeExpr} (hsimple : type.isSimple) : type.isNamed ∧ type.hasFlatKeys := by
  induction type with
  | pointer target ih => exact ih hsimple
  | slice element ih => exact ih hsimple
  | mapping key value ihKey ihValue =>
      obtain ⟨hmapping, hkey, hvalue⟩ := isSimple_mapping hsimple
      simp [isNamed, hasFlatKeys, hmapping, ihKey hkey, ihValue hvalue]
  | qualified package name =>
      obtain ⟨hpackage, hname⟩ := isSimple_qualified hsimple
      exact ⟨Bool.and_eq_true_iff.mpr ⟨hpackage, isSelector_of_isIdentifier hname⟩, rfl⟩
  | verbatim text => exact ⟨hsimple, rfl⟩

theorem spells_of_isSimple {type : TypeExpr} (hsimple : type.isSimple) : Spells type.render type := by
  obtain ⟨hnamed, hflat⟩ := isNamed_of_isSimple hsimple
  exact (spaced_render type).spells hnamed hflat

theorem readOrKeep_render {type : TypeExpr} (hsimple : type.isSimple) : readOrKeep type.render = type := by
  rw [readOrKeep, read_eq_ok.mpr (spells_of_isSimple hsimple)]

/-- The lexemes of a type expression, where its leaves are words. -/
def lexemes : TypeExpr → List Lexeme
  | pointer target => ⟨.mark .star, ['*']⟩ :: target.lexemes
  | slice element => ⟨.mark .openBracket, ['[']⟩ :: ⟨.mark .closeBracket, [']']⟩ :: element.lexemes
  | mapping key value =>
      ⟨.keyword .mapWord, "map".toList⟩ :: ⟨.mark .openBracket, ['[']⟩ ::
        (key.lexemes ++ ⟨.mark .closeBracket, [']']⟩ :: value.lexemes)
  | qualified package name => [⟨ofWord package, package⟩, ⟨.mark .dot, ['.']⟩, ⟨ofWord name, name⟩]
  | verbatim text => [⟨ofWord text, text⟩]

theorem source_lexemes (type : TypeExpr) : source type.lexemes = type.render := by
  induction type with
  | pointer target ih => simp [lexemes, render_pointer, ih]
  | slice element ih => simp [lexemes, render_slice, ih]
  | mapping key value ihKey ihValue => simp [lexemes, render_mapping, ihKey, ihValue]
  | qualified package name => simp [lexemes, render_qualified]
  | verbatim text => simp [lexemes, render_verbatim]

end TypeExpr

namespace Scan

theorem lexemes_openBracket (rest : Text) :
    lexemes ('[' :: rest) = ⟨.mark .openBracket, ['[']⟩ :: lexemes rest := by
  apply @lexemes_cons ['['] rest .mark rfl
  intro d _
  simp [Mode.extend, beginsMark, marks]

theorem lexemes_closeBracket (rest : Text) :
    lexemes (']' :: rest) = ⟨.mark .closeBracket, [']']⟩ :: lexemes rest := by
  apply @lexemes_cons [']'] rest .mark rfl
  intro d _
  simp [Mode.extend, beginsMark, marks]

theorem lexemes_star {target : TypeExpr} (hsimple : target.isSimple) (rest : Text) :
    lexemes ('*' :: (target.render ++ rest)) = ⟨.mark .star, ['*']⟩ :: lexemes (target.render ++ rest) := by
  apply @lexemes_cons ['*'] _ .mark rfl
  intro d hd
  obtain ⟨c, others, hrender, hc⟩ := TypeExpr.head_render hsimple
  have hne : d ≠ '=' := by
    rw [hrender] at hd
    obtain rfl := Option.some.inj hd
    rintro rfl
    exact absurd hc (by decide)
  simp [Mode.extend, beginsMark, marks, hne]

theorem lexemes_dot {name : Text} (hname : isIdentifier name) (rest : Text) :
    lexemes ('.' :: (name ++ rest)) = ⟨.mark .dot, ['.']⟩ :: lexemes (name ++ rest) := by
  apply @lexemes_cons ['.'] _ .mark rfl
  intro d hd
  obtain ⟨c, others, rfl, hc, -⟩ := isIdentifier_cases hname
  obtain rfl := Option.some.inj hd
  have hdigit : c.isDigit = false := by
    obtain hletter | rfl := hc
    · exact Bool.eq_false_iff.mpr (Text.not_isDigit_of_isLetter hletter)
    · rfl
  have hne : c ≠ '.' := by
    rintro rfl
    exact absurd hc (by decide)
  simp [Mode.extend, beginsMark, marks, hdigit, hne]

theorem lexemes_mapWord (rest : Text) :
    lexemes ("map".toList ++ '[' :: rest) =
      ⟨.keyword .mapWord, "map".toList⟩ :: ⟨.mark .openBracket, ['[']⟩ :: lexemes rest := by
  rw [← lexemes_openBracket]
  apply @lexemes_word 'm' "ap".toList _ (by decide) (List.all_eq_true.mp (by decide))
  intro d hd
  obtain rfl := Option.some.inj hd
  decide

/-- The text of a type expression is cut into its lexemes, unless the grammar refuses it for a character. -/
theorem lexemes_type {type : TypeExpr} {rest : Text} (hsimple : type.isSimple)
    (hrest : ∀ d ∈ rest.head?, ¬ Text.isWordPart d)
    (hstray : ∀ lexeme ∈ lexemes (type.render ++ rest), lexeme.kind ≠ .stray) :
    lexemes (type.render ++ rest) = type.lexemes ++ lexemes rest := by
  induction type generalizing rest with
  | pointer target ih =>
      have hsplit : lexemes ((TypeExpr.pointer target).render ++ rest) =
          ⟨.mark .star, ['*']⟩ :: lexemes (target.render ++ rest) :=
        @lexemes_star target hsimple rest
      rw [hsplit] at hstray ⊢
      rw [ih hsimple hrest (List.forall_mem_cons.mp hstray).2]
      rfl
  | slice element ih =>
      have hsplit : lexemes ((TypeExpr.slice element).render ++ rest) =
          ⟨.mark .openBracket, ['[']⟩ :: ⟨.mark .closeBracket, [']']⟩ :: lexemes (element.render ++ rest) :=
        (lexemes_openBracket _).trans (congrArg _ (lexemes_closeBracket _))
      rw [hsplit] at hstray ⊢
      obtain ⟨-, -, hstray⟩ := List.forall_mem_cons.mp hstray |>.imp_right List.forall_mem_cons.mp
      rw [ih hsimple hrest hstray]
      rfl
  | mapping key value ihKey ihValue =>
      obtain ⟨-, hkey, hvalue⟩ := TypeExpr.isSimple_mapping hsimple
      have hsplit : lexemes ((TypeExpr.mapping key value).render ++ rest) =
          ⟨.keyword .mapWord, "map".toList⟩ :: ⟨.mark .openBracket, ['[']⟩ ::
            lexemes (key.render ++ (']' :: (value.render ++ rest))) := by
        rw [← lexemes_mapWord]
        simp [TypeExpr.render_mapping]
      rw [hsplit] at hstray ⊢
      obtain ⟨-, -, hstray⟩ := List.forall_mem_cons.mp hstray |>.imp_right List.forall_mem_cons.mp
      have hkeyLexemes := ihKey hkey (by simp; decide) hstray
      rw [hkeyLexemes, lexemes_closeBracket] at hstray ⊢
      have hvalueStray := (List.forall_mem_cons.mp (List.forall_mem_append.mp hstray).2).2
      rw [ihValue hvalue hrest hvalueStray]
      simp [TypeExpr.lexemes]
  | qualified package name =>
      obtain ⟨hpackage, hname⟩ := TypeExpr.isSimple_qualified hsimple
      have hsplit : (TypeExpr.qualified package name).render ++ rest = package ++ '.' :: (name ++ rest) := by
        simp [TypeExpr.render_qualified]
      rw [hsplit] at hstray ⊢
      have hpackageLexemes := lexemes_identifier hpackage (by simp; decide) hstray
      rw [hpackageLexemes, lexemes_dot hname] at hstray ⊢
      obtain ⟨-, -, hstray⟩ := List.forall_mem_cons.mp hstray |>.imp_right List.forall_mem_cons.mp
      rw [lexemes_identifier hname hrest hstray]
      rfl
  | verbatim text => exact lexemes_identifier hsimple hrest hstray

end Scan

end GoGraft
