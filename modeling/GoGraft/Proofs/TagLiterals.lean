import GoGraft.Proofs.PlainFields

/-!
# Tags as string literals

A tag that is not quoted is put between backquotes, and one that is quoted is written as it stands. A tag passes the
check if it begins and ends with the same quote, but only between backquotes is what stands inside looked at. So a tag
between backquotes is one string literal, and one between double quotes is exactly if no quote inside ends the literal
before its end and no backslash takes the last quote away. What is one literal is read as one, with what follows it read
as if it stood alone, unless an escape in it is none of the language.
-/

namespace GoGraft

open Lexeme

/-- What can stand between double quotes: no newline, no quote that is not escaped, and no backslash at the end that has
nothing to escape. A backslash escapes the character after it unless it is escaped itself. -/
def isQuotable (escaped : Bool) : Text → Bool
  | [] => !escaped
  | c :: rest => c != '\n' && (escaped || c != '\x22') && isQuotable (!escaped && c == '\\') rest

/-- One whole string literal of the language. -/
inductive IsStringLiteral : Text → Prop where
  | raw {inner : Text} (hinner : '\x60' ∉ inner) : IsStringLiteral ('\x60' :: (inner ++ ['\x60']))
  | interpreted {inner : Text} (hinner : isQuotable false inner) : IsStringLiteral ('\x22' :: (inner ++ ['\x22']))

theorem isStringLiteral_quoted {inner : Text} :
    IsStringLiteral ('\x22' :: (inner ++ ['\x22'])) ↔ isQuotable false inner := by
  constructor
  · generalize htext : '\x22' :: (inner ++ ['\x22']) = text
    rintro (_ | hinner)
    · cases htext
    · obtain rfl := List.append_cancel_right (List.cons.inj htext).2
      exact hinner
  · exact .interpreted

namespace Scan

/-! ## Inside an interpreted literal -/

/-- A mode inside an interpreted literal, and whether the next character is escaped. -/
inductive Mode.InString : Mode → Bool → Prop where
  | plain : InString .string false
  | escape : InString .stringEscape true
  | digits (count : Nat) : InString (.stringHex count) false

variable {mode : Mode} {escaped : Bool}

theorem not_isHexDigit {c : Char} (hc : c = '\x22' ∨ c = '\\') : ¬ Numeral.isHexDigit c := by
  obtain rfl | rfl := hc <;> decide

/-- A character inside a literal ends it, stays inside it, or is no digit where the escape needs one. -/
theorem Mode.InString.extend (hmode : mode.InString escaped) (read : Text) {c : Char} (hc : c ≠ '\n') :
    (escaped = false ∧ c = '\x22' ∧ mode.extend read c = some (.whole .string)) ∨
      ((escaped || c != '\x22') ∧ ∃ next, mode.extend read c = some next ∧ next.InString (!escaped && c == '\\')) ∨
      ∃ count, mode = .stringHex count ∧ mode.extend read c = none := by
  cases hmode with
  | plain =>
      by_cases hquote : c = '\x22'
      · exact .inl ⟨rfl, hquote, by simp [Mode.extend, hquote]⟩
      · refine .inr (.inl ⟨by simpa using hquote, ?_⟩)
        by_cases hescape : c = '\\'
        · exact ⟨.stringEscape, by simp [Mode.extend, hescape], by simpa [hescape] using .escape⟩
        · exact ⟨.string, by simp [Mode.extend, hquote, hescape, hc],
            by rw [beq_eq_false_iff_ne.mpr hescape]; exact .plain⟩
  | escape =>
      refine .inr (.inl ⟨rfl, ?_⟩)
      simp only [Mode.extend, Bool.not_true, Bool.false_and]
      repeat' split
      · exact ⟨_, rfl, .digits 1⟩
      · exact ⟨_, rfl, .digits 3⟩
      · exact ⟨_, rfl, .digits 7⟩
      · exact ⟨_, rfl, .plain⟩
  | digits count =>
      by_cases hdigit : Numeral.isHexDigit c
      · have hquote : c ≠ '\x22' := fun hquote => not_isHexDigit (.inl hquote) hdigit
        have hescape : c ≠ '\\' := fun hescape => not_isHexDigit (.inr hescape) hdigit
        refine .inr (.inl ⟨by simpa using hquote, ?_⟩)
        simp only [Mode.extend, hdigit, if_true, beq_eq_false_iff_ne.mpr hescape, Bool.and_false]
        cases count with
        | zero => exact ⟨.string, rfl, .plain⟩
        | succ count => exact ⟨.stringHex count, rfl, .digits count⟩
      · exact .inr (.inr ⟨count, rfl, by simp [Mode.extend, hdigit]⟩)

/-- What can stand between quotes is read up to the quote that ends it, or up to an escape that lacks a digit. -/
theorem Mode.InString.through {inner : Text} (hmode : mode.InString escaped) (hinner : isQuotable escaped inner)
    (read : Text) :
    mode.through read (inner ++ ['\x22']) = some (.whole .string) ∨
      ∃ front c back count, inner ++ ['\x22'] = front ++ c :: back ∧
        mode.through read front = some (.stringHex count) ∧
        (Mode.stringHex count).extend (front.reverse ++ read) c = none := by
  induction inner generalizing mode escaped read with
  | nil =>
      obtain rfl : escaped = false := by simpa [isQuotable] using hinner
      cases hmode with
      | plain => exact .inl rfl
      | digits count => exact .inr ⟨[], '\x22', [], count, rfl, rfl, rfl⟩
  | cons c inner ih =>
      simp only [isQuotable, Bool.and_eq_true, bne_iff_ne] at hinner
      obtain ⟨⟨hc, hplain⟩, hinner⟩ := hinner
      obtain ⟨rfl, rfl, -⟩ | ⟨-, next, hnext, hmode⟩ | ⟨count, rfl, hnone⟩ := hmode.extend read hc
      · simp at hplain
      · obtain hwhole | ⟨front, d, back, count, hsplit, hfront, hnone⟩ := ih hmode hinner (c :: read)
        · left
          rw [List.cons_append, Mode.through, hnext]
          exact hwhole
        · refine .inr ⟨c :: front, d, back, count, by rw [List.cons_append, hsplit, List.cons_append], ?_, ?_⟩
          · rw [Mode.through, hnext]
            exact hfront
          · simpa using hnone
      · exact .inr ⟨[], c, inner ++ ['\x22'], count, rfl, rfl, hnone⟩

theorem Mode.InString.isQuotable_of_through {word : Text} (hmode : mode.InString escaped) (hword : '\n' ∉ word)
    {read : Text} (hthrough : mode.through read word = some (.whole .string)) :
    ∃ inner, word = inner ++ ['\x22'] ∧ isQuotable escaped inner := by
  induction word generalizing mode escaped read with
  | nil => cases hmode <;> cases hthrough
  | cons c word ih =>
      obtain ⟨hc, hword⟩ := not_or.mp (mt List.mem_cons.mpr hword)
      obtain ⟨next, hnext, hthrough⟩ := Option.bind_eq_some_iff.mp hthrough
      obtain ⟨rfl, rfl, hextend⟩ | ⟨hplain, other, hextend, hmode⟩ | ⟨count, rfl, hnone⟩ :=
        hmode.extend read (Ne.symm hc)
      · obtain rfl := Option.some.inj (hextend.symm.trans hnext)
        cases word with
        | nil => exact ⟨[], rfl, rfl⟩
        | cons d word => cases hthrough
      · obtain rfl := Option.some.inj (hextend.symm.trans hnext)
        obtain ⟨inner, rfl, hinner⟩ := ih hmode hword hthrough
        refine ⟨c :: inner, rfl, ?_⟩
        simp only [isQuotable, Bool.and_eq_true, bne_iff_ne]
        exact ⟨⟨Ne.symm hc, hplain⟩, hinner⟩
      · rw [hnone] at hnext
        cases hnext

/-- A string literal is one lexeme wherever a lexeme can begin, or the lexeme that begins there is none of the
language. -/
theorem lexemes_literal {literal : Text} (hliteral : IsStringLiteral literal) (rest : Text) :
    lexemes (literal ++ rest) = ⟨.string, literal⟩ :: lexemes rest ∨
      ∃ stray, (lexemes (literal ++ rest)).head? = some stray ∧ stray.kind = .stray := by
  cases hliteral with
  | raw hinner => exact .inl (lexemes_backquoted hinner)
  | @interpreted inner hinner =>
      obtain hwhole | ⟨front, c, back, count, hsplit, hfront, hnone⟩ := Mode.InString.plain.through hinner ['\x22']
      · have hmode : mode? ('\x22' :: (inner ++ ['\x22'])) = some (.whole .string) := hwhole
        exact .inl (lexemes_cons hmode fun _ _ => rfl)
      · have hmode : mode? ('\x22' :: front) = some (.stringHex count) := hfront
        have hcut : lexemes ('\x22' :: front ++ (c :: (back ++ rest))) =
            ⟨.stray, '\x22' :: front⟩ :: lexemes (c :: (back ++ rest)) := by
          apply lexemes_cons hmode
          rintro d hd
          obtain rfl := Option.some.inj hd
          simpa using hnone
        refine .inr ⟨⟨.stray, '\x22' :: front⟩, ?_, rfl⟩
        have htext : '\x22' :: (inner ++ ['\x22']) ++ rest = '\x22' :: front ++ (c :: (back ++ rest)) := by
          rw [hsplit]
          simp
        rw [htext, hcut]
        rfl

theorem isStringLiteral_of_lexemes {inner rest : Text} (hinner : '\n' ∉ inner)
    (hlexemes : lexemes ('\x22' :: inner ++ rest) = ⟨.string, '\x22' :: inner⟩ :: lexemes rest) :
    IsStringLiteral ('\x22' :: inner) := by
  have hcut : Lexeme.IsCut ⟨.string, '\x22' :: inner⟩ :=
    (cuts_lexemes ('\x22' :: inner ++ rest)).isCut _ (by rw [hlexemes]; exact List.mem_cons_self)
  have hthrough : Mode.string.through ['\x22'] inner = some (.whole .string) := hcut.mode_of_string rfl
  obtain ⟨inner, rfl, hquotable⟩ := Mode.InString.plain.isQuotable_of_through hinner hthrough
  exact .interpreted hquotable

end Scan

/-! ## Tags that pass the check -/

/-- A tag that passes the check is written between backquotes, with none inside, or as it stands between double
quotes. -/
theorem renderTag_cases {tag : Text} (hchecked : checkTag tag = .ok ()) :
    (tag.head? ≠ some '\x22' ∧ ∃ inner, '\x60' ∉ inner ∧ renderTag tag = '\x60' :: (inner ++ ['\x60'])) ∨
      ∃ inner, '\n' ∉ inner ∧ tag = '\x22' :: (inner ++ ['\x22']) ∧ renderTag tag = tag := by
  have htag : isTag tag := by
    apply Decidable.byContradiction
    intro hnot
    rw [checkTag, if_neg hnot] at hchecked
    cases hchecked
  obtain ⟨hnewline, htag⟩ := Bool.and_eq_true_iff.mp htag
  split at htag
  · rename_i rest
    simp only [Bool.and_eq_true, decide_eq_true_eq] at htag
    obtain ⟨hlast, hinner⟩ := htag
    obtain ⟨inner, rfl⟩ := List.getLast?_eq_some_iff.mp hlast
    exact .inl ⟨by simp, inner, by simpa using hinner, rfl⟩
  · rename_i rest
    obtain ⟨inner, rfl⟩ := List.getLast?_eq_some_iff.mp (of_decide_eq_true htag)
    exact .inr ⟨inner, by simpa using hnewline, rfl, rfl⟩
  · rename_i hbackquote hquote
    refine .inl ⟨?_, tag, by simpa using htag, ?_⟩
    · intro hhead
      obtain ⟨rest, rfl⟩ := List.head?_eq_some_iff.mp hhead
      exact hquote rest rfl
    · unfold renderTag
      split
      · exact absurd rfl (hbackquote _)
      · exact absurd rfl (hquote _)
      · rfl

/-- A tag that passes the check is written as one string literal exactly if, should it be between double quotes, what is
between them can stand there. A tag that is written as one literal is read as one, with nothing of it outside and
nothing after it inside, unless an escape in it makes the text unreadable. A tag that is not is never read as one. -/
theorem NewField.tag_literal {field : NewField} {tag : Text} (htag : field.tag = some tag) (hne : tag ≠ [])
    (hchecked : checkTag tag = .ok ()) (indent newline : Text) :
    field.render indent newline = renderDoc field.doc indent newline ++
        (indent ++ (field.name ++ ' ' :: (field.type.render ++ ' ' :: (renderTag tag ++ newline)))) ∧
      (IsStringLiteral (renderTag tag) ↔ ∀ inner, tag = '\x22' :: (inner ++ ['\x22']) → isQuotable false inner) ∧
      (IsStringLiteral (renderTag tag) → ∀ rest,
        Scan.lexemes (renderTag tag ++ rest) = ⟨.string, renderTag tag⟩ :: Scan.lexemes rest ∨
          ∃ stray, (Scan.lexemes (renderTag tag ++ rest)).head? = some stray ∧ stray.kind = .stray) ∧
      (¬ IsStringLiteral (renderTag tag) → ∀ rest,
        Scan.lexemes (renderTag tag ++ rest) ≠ ⟨.string, renderTag tag⟩ :: Scan.lexemes rest) := by
  refine ⟨?_, ?_, fun hliteral => Scan.lexemes_literal hliteral, ?_⟩
  · have htext : field.tagText = ' ' :: renderTag tag := by
      unfold tagText
      rw [htag]
      cases tag with
      | nil => exact absurd rfl hne
      | cons c tag => rfl
    rw [render_eq, line, htext, List.cons_append]
  · obtain ⟨hhead, inner, hinner, hrender⟩ | ⟨inner, -, rfl, hrender⟩ := renderTag_cases hchecked
    · rw [hrender]
      refine iff_of_true (.raw hinner) ?_
      rintro inner rfl
      exact absurd rfl hhead
    · rw [hrender, isStringLiteral_quoted]
      constructor
      · intro hquotable other hother
        rwa [← List.append_cancel_right (List.cons.inj hother).2]
      · intro hall
        exact hall inner rfl
  · intro hnot rest hlexemes
    obtain ⟨-, inner, hinner, hrender⟩ | ⟨inner, hnewline, rfl, hrender⟩ := renderTag_cases hchecked
    · exact hnot (hrender ▸ .raw hinner)
    · rw [hrender] at hnot hlexemes
      exact hnot (Scan.isStringLiteral_of_lexemes (by simpa using hnewline) hlexemes)

theorem NewField.tag_literal_escaped :
    let inner := "json:\\\x22x\\\x22".toList
    let tag := '\x22' :: (inner ++ ['\x22'])
    let field : NewField := ⟨['X'], .verbatim "int".toList, some tag, none⟩
    tag ≠ [] ∧ checkTag tag = .ok () ∧ IsStringLiteral (renderTag tag) ∧
      field.render ['\t'] ['\n'] = "\tX int \x22json:\\\x22x\\\x22\x22\n".toList := by
  intro inner tag field
  have hne : tag ≠ [] := by decide
  have hchecked : checkTag tag = .ok () := rfl
  obtain ⟨hrender, hliteral, -⟩ := @NewField.tag_literal field tag rfl hne hchecked ['\t'] ['\n']
  refine ⟨hne, hchecked, hliteral.mpr ?_, hrender⟩
  intro other hother
  rw [← List.append_cancel_right (List.cons.inj hother).2]
  decide

-- The first literal ends in the middle of the tag, and what follows it is a second field.
example :
    let tag := "\x22a\x22; Y string \x22b\x22".toList
    let field : NewField := ⟨['X'], .verbatim "int".toList, some tag, none⟩
    isTag tag ∧ ¬ isQuotable false (tag.drop 1).dropLast ∧
      (readFields (field.line ['\n'])).map (·.map Field.name) = some [['X'], ['Y']] := by
  decide

end GoGraft
