import GoGraft.Proofs.PlainFields
import GoGraft.Proofs.TypeRuns

/-!
# Fields that are read back

The line of a field is its name, its type, at most a tag, and the end of the line. Where the type has nothing but
identifiers for names and the tag stands between backquotes, this line is read as the one field that it was written for,
whatever the struct type holds and wherever it stands.
-/

namespace GoGraft

open Grammar Lexeme

/-- The tag of a field between backquotes. -/
def NewField.literal (field : NewField) : Option Text :=
  match field.tag with
  | none | some [] => none
  | some tag => some ('\x60' :: (tag ++ ['\x60']))

theorem NewField.tagText_eq (field : NewField)
    (htag : ∀ tag ∈ field.tag, '\x60' ∉ tag ∧ tag.head? ≠ some '\x22') :
    (field.tagText = [] ∧ field.literal = none) ∨
      ∃ tag, '\x60' ∉ tag ∧ field.tagText = ' ' :: '\x60' :: (tag ++ ['\x60']) ∧
        field.literal = some ('\x60' :: (tag ++ ['\x60'])) := by
  obtain ⟨name, type, tag, doc⟩ := field
  match tag with
  | none | some [] => exact .inl ⟨rfl, rfl⟩
  | some (c :: tag) =>
      obtain ⟨hbackquote, hquote⟩ := htag (c :: tag) rfl
      refine .inr ⟨c :: tag, hbackquote, ?_, rfl⟩
      change ' ' :: renderTag (c :: tag) = _
      unfold renderTag
      split
      · rename_i htag
        exact absurd (htag ▸ List.mem_cons_self) hbackquote
      · rename_i htag
        exact absurd (congrArg List.head? htag) hquote
      · rfl

namespace Structure

section Line

variable {name : Placed} {blank typed gap : List Placed} {tag : Option Placed}

theorem trim_of_ink {lexemes : List Placed} (hink : ∀ placed ∈ lexemes, placed.role ≠ .trivia) :
    trim lexemes = lexemes := by
  have hdrop {lexemes : List Placed} (hink : ∀ placed ∈ lexemes, placed.role ≠ .trivia) :
      lexemes.dropWhile Placed.isTrivia = lexemes := by
    cases lexemes with
    | nil => rfl
    | cons first rest =>
        have hfirst : ¬ first.isTrivia := by simpa [Placed.isTrivia] using hink first List.mem_cons_self
        exact List.dropWhile_cons_of_neg hfirst
  rw [trim, hdrop hink, hdrop (by simpa using hink), List.reverse_reverse]

theorem fieldsOf_named (hname : name.role = .field) (hblank : ∀ placed ∈ blank, placed.role = .trivia)
    (htyped : ∀ placed ∈ typed, placed.role = .inner ∨ placed.role = .fieldNamed)
    (hnamed : ∃ placed ∈ typed, placed.role = .fieldNamed) (hgap : ∀ placed ∈ gap, placed.role = .trivia)
    (htag : ∀ placed ∈ tag, placed.role = .tag) :
    fieldsOf (name :: (blank ++ (typed ++ (gap ++ tag.toList)))) =
      [⟨name.text, TypeExpr.readOrKeep (source typed), tag.map Placed.text, false⟩] := by
  -- Only the name has the role of one and only the tag its own, so that each search stops at the right lexeme.
  have hlater : ∀ placed ∈ blank ++ (typed ++ gap), placed.role ≠ .tag ∧ placed.role ≠ .field := by
    intro placed hplaced
    have hrole : placed.role = .trivia ∨ placed.role = .inner ∨ placed.role = .fieldNamed := by
      simp only [List.mem_append] at hplaced
      obtain hplaced | hplaced | hplaced := hplaced
      · exact .inl (hblank placed hplaced)
      · exact .inr (htyped placed hplaced)
      · exact .inl (hgap placed hplaced)
    obtain hrole | hrole | hrole := hrole <;> rw [hrole] <;> decide
  have hall : ∀ placed ∈ name :: (blank ++ (typed ++ gap)), placed.role ≠ .tag := by
    refine List.forall_mem_cons.mpr ⟨?_, fun placed hplaced => (hlater placed hplaced).1⟩
    rw [hname]
    decide
  have hsplit : name :: (blank ++ (typed ++ (gap ++ tag.toList))) =
      (name :: (blank ++ (typed ++ gap))) ++ tag.toList := by
    simp
  have htake : (name :: (blank ++ (typed ++ (gap ++ tag.toList)))).takeWhile (·.role ≠ .tag) =
      name :: (blank ++ (typed ++ gap)) := by
    rw [hsplit, List.takeWhile_append_of_pos (by simpa using hall)]
    cases tag with
    | none => simp
    | some literal => rw [Option.toList_some, List.takeWhile_cons_of_neg (by simpa using htag), List.append_nil]
  have hfind : (name :: (blank ++ (typed ++ (gap ++ tag.toList)))).find? (·.role = .tag) = tag := by
    rw [hsplit, List.find?_append, List.find?_eq_none.mpr (by simpa using hall), Option.none_or]
    cases tag with
    | none => rfl
    | some literal => rw [Option.toList_some, List.find?_cons_of_pos (by simpa using htag)]
  have hany : (name :: (blank ++ (typed ++ (gap ++ tag.toList)))).any (·.role = .fieldNamed) := by
    obtain ⟨placed, hplaced, hrole⟩ := hnamed
    exact List.any_eq_true.mpr ⟨placed, by simp [hplaced], decide_eq_true hrole⟩
  have hafter : afterLast (·.role = .field) (name :: (blank ++ (typed ++ gap))) = blank ++ (typed ++ gap) := by
    apply @afterLast_append _ [name]
    · simpa using hname
    · intro placed hplaced
      simpa using (hlater placed hplaced).2
  have hnames : (name :: (blank ++ (typed ++ gap))).filter (·.role = .field) = [name] := by
    rw [List.filter_cons_of_pos (by simpa using hname), List.filter_eq_nil_iff.mpr]
    intro placed hplaced
    simpa using (hlater placed hplaced).2
  have htrim : trim (blank ++ (typed ++ gap)) = typed := by
    rw [trim_trivia_append hblank, trim_append_trivia hgap, trim_of_ink]
    intro placed hplaced
    obtain hrole | hrole := htyped placed hplaced <;> rw [hrole] <;> decide
  unfold fieldsOf
  simp only [htake, hfind, hany, if_true, hafter, hnames, htrim, List.map_cons, List.map_nil]

theorem fieldsIn_named {ending : List Placed} {split : Placed} (hname : name.role = .field)
    (hblank : ∀ placed ∈ blank, placed.role = .trivia)
    (htyped : ∀ placed ∈ typed, placed.role = .inner ∨ placed.role = .fieldNamed)
    (hnamed : ∃ placed ∈ typed, placed.role = .fieldNamed) (hgap : ∀ placed ∈ gap, placed.role = .trivia)
    (htag : ∀ placed ∈ tag, placed.role = .tag) (hnone : tag = none → gap = [])
    (hending : ∀ placed ∈ ending, placed.role = .trivia) (hsplit : split.role = .recordSplit) :
    fieldsIn (name :: (blank ++ (typed ++ (gap ++ tag.toList))) ++ ending ++ [split]) =
      [⟨name.text, TypeExpr.readOrKeep (source typed), tag.map Placed.text, false⟩] := by
  have hpart : ∀ placed ∈ name :: (blank ++ (typed ++ (gap ++ tag.toList))), placed.role ≠ .recordSplit := by
    intro placed hplaced hrole
    simp only [List.mem_cons, List.mem_append, Option.mem_toList] at hplaced
    obtain rfl | hplaced | hplaced | hplaced | hplaced := hplaced
    · cases hname.symm.trans hrole
    · cases (hblank placed hplaced).symm.trans hrole
    · obtain hinner | hinner := htyped placed hplaced <;> cases hinner.symm.trans hrole
    · cases (hgap placed hplaced).symm.trans hrole
    · cases (htag placed hplaced).symm.trans hrole
  have htrim : trim (name :: (blank ++ (typed ++ (gap ++ tag.toList)))) =
      name :: (blank ++ (typed ++ (gap ++ tag.toList))) := by
    obtain ⟨front, last, hfront, hlast⟩ : ∃ front last,
        blank ++ (typed ++ (gap ++ tag.toList)) = front ++ [last] ∧ last.role ≠ .trivia := by
      cases tag with
      | none =>
          rw [hnone rfl]
          obtain ⟨placed, hplaced, -⟩ := hnamed
          have hne : typed ≠ [] := List.ne_nil_of_mem hplaced
          refine ⟨blank ++ typed.dropLast, typed.getLast hne, ?_, ?_⟩
          · rw [List.append_assoc, List.dropLast_concat_getLast]
            simp
          · obtain hrole | hrole := htyped _ (List.getLast_mem hne) <;> rw [hrole] <;> decide
      | some literal =>
          refine ⟨blank ++ (typed ++ gap), literal, by simp, ?_⟩
          rw [htag literal rfl]
          decide
    have hfirst : ¬ name.isTrivia := by simp [Placed.isTrivia, hname]
    rw [hfront, ← List.cons_append, trim_append_cons hlast (by simp), List.cons_append,
      List.dropWhile_cons_of_neg hfirst]
  have hnil : fieldsIn [] = [] := rfl
  rw [fieldsIn_append_cons hsplit, hnil, List.append_nil, fieldsIn_append_trivia hending, fieldsIn,
    splitAt_of_ne hpart, List.map_singleton, htrim, List.filter_cons_of_pos (by simp), List.filter_nil,
    List.flatMap_singleton, fieldsOf_named hname hblank htyped hnamed hgap htag]

end Line

end Structure

namespace Grammar

/-- The tag of a field, and the blank before it. -/
def tagged (literal : Option Text) : List Marked :=
  match literal with
  | none => []
  | some text => [⟨⟨.blank, [' ']⟩, .trivia⟩, ⟨⟨.string, text⟩, .tag⟩]

/-- The line of a field after its type. -/
def fieldEnding (literal : Option Text) (ending : List Lexeme) : List Marked :=
  tagged literal ++ (asTrivia ending ++ [⟨⟨.newline, ['\n']⟩, .recordSplit⟩])

/-- The line of a field. -/
def fieldLine (name : Text) (typed : List Marked) (literal : Option Text) (ending : List Lexeme) : List Marked :=
  [⟨⟨ofWord name, name⟩, .field⟩, ⟨⟨.blank, [' ']⟩, .trivia⟩] ++ (typed ++ fieldEnding literal ending)

theorem reads_blank {blank : List Lexeme} (hblank : ∀ lexeme ∈ blank, lexeme.kind = .blank) (stack : List Frame) :
    Reads stack (asTrivia blank) stack := by
  induction blank with
  | nil => exact .refl stack
  | cons lexeme blank ih =>
      obtain ⟨hlexeme, hblank⟩ := List.forall_mem_cons.mp hblank
      refine .step ?_ (ih hblank)
      change advance stack lexeme.kind = _
      rw [hlexeme]
      rfl

theorem reads_ending {frame : Frame} {ending : List Lexeme} (hframe : frame.IsName)
    (hending : ∀ lexeme ∈ ending, lexeme.kind = .blank) (literal : Option Text) (bottom : List Frame) :
    Reads (frame :: .type (.tag true) :: fieldFloor :: bottom) (fieldEnding literal ending)
      (.type (.fields true) :: bottom) := by
  cases literal with
  | none =>
      refine (reads_blank hending _).append (.step ?_ (.refl _))
      obtain rfl | rfl := hframe
      all_goals exact advance_of_settles (.down rfl rfl (.down rfl rfl (.here _ _))) rfl rfl (by decide) (by decide)
  | some text =>
      have htag : Reads (frame :: .type (.tag true) :: fieldFloor :: bottom) (tagged (some text))
          (fieldFloor :: bottom) := by
        refine .step rfl (.step ?_ (.refl _))
        obtain rfl | rfl := hframe
        all_goals exact advance_of_settles (.down rfl rfl (.here _ _)) rfl rfl (by rintro ⟨⟩) (by rintro ⟨⟩)
      refine htag.append ((reads_blank hending _).append (.step ?_ (.refl _)))
      exact advance_of_settles (.here _ _) rfl rfl (by decide) (by decide)

theorem followName_fieldEnding {literal : Option Text} {ending indent back : List Lexeme} {close : Lexeme}
    (hending : ∀ lexeme ∈ ending, lexeme.kind = .blank) (hindent : ∀ lexeme ∈ indent, Scan.isTrivial lexeme.kind)
    (hclose : close.kind = .mark .closeBrace) :
    FollowName ((fieldEnding literal ending).map Marked.lexeme ++ (indent ++ close :: back)) := by
  cases literal with
  | none =>
      refine ⟨ending ++ ⟨.newline, ['\n']⟩ :: indent, close, back, by simp [fieldEnding, tagged], ?_,
        by rw [hclose]; rfl⟩
      refine List.forall_mem_append.mpr ⟨?_, List.forall_mem_cons.mpr ⟨rfl, hindent⟩⟩
      intro lexeme hlexeme
      rw [hending lexeme hlexeme]
      rfl
  | some text => exact ⟨[⟨.blank, [' ']⟩], ⟨.string, text⟩, _, rfl, by simp; rfl, rfl⟩

theorem isBody_fieldLine {typed : List Marked} (name : Text) (literal : Option Text) (ending : List Lexeme)
    (htyped : ∀ m ∈ typed, m.role = .inner ∨ m.role = .fieldNamed) :
    ∀ m ∈ fieldLine name typed literal ending, m.role.IsBody := by
  have htag : ∀ m ∈ tagged literal, m.role.IsBody := by
    cases literal with
    | none => simp [tagged]
    | some text => simp [tagged, Role.IsBody]; decide
  intro m hm
  simp only [fieldLine, fieldEnding, List.mem_append, List.mem_cons, List.not_mem_nil, or_false] at hm
  obtain (rfl | rfl) | hm | hm | hm | rfl := hm
  · exact .inr (.inl (show Role.field.level ≤ 1 by decide))
  · exact .inl rfl
  · obtain hrole | hrole := htyped m hm <;> rw [hrole] <;> exact .inr (.inl (by decide))
  · exact htag m hm
  · exact .inl (role_of_mem_asTrivia m hm)
  · exact .inr (.inr rfl)

end Grammar

/-- The line of a field is read as the field. -/
theorem Structure.fieldsIn_fieldLine {type : TypeExpr} {typed : List Marked} {ending : List Lexeme}
    (name : Text) (literal : Option Text) (htype : type.isSimple) (htyped : TypesField type typed) :
    fieldsIn (place 0 (fieldLine name typed literal ending)) = [⟨name, type, literal, false⟩] := by
  have hmap {p : Role → Prop} {marked : List Marked} (hmarked : ∀ m ∈ marked, p m.role) :
      ∀ placed ∈ marked.map (Placed.mk 0), p placed.role := by
    simpa [Placed.role] using hmarked
  have hsource : source (typed.map (Placed.mk 0)) = type.render := by
    rw [← type.source_lexemes, ← htyped.lexemes, source, Lexeme.source, List.flatMap_map, List.flatMap_map]
    rfl
  have hnamed : ∃ placed ∈ typed.map (Placed.mk 0), placed.role = .fieldNamed := by
    obtain ⟨m, hm, hrole⟩ := htyped.named
    exact ⟨⟨0, m⟩, List.mem_map_of_mem hm, hrole⟩
  have hline (gap : List Placed) (tag : Option Placed) (hgap : ∀ placed ∈ gap, placed.role = .trivia)
      (htag : ∀ placed ∈ tag, placed.role = .tag) (hnone : tag = none → gap = []) :=
    @fieldsIn_named ⟨0, ⟨⟨ofWord name, name⟩, .field⟩⟩ [⟨0, ⟨⟨.blank, [' ']⟩, .trivia⟩⟩] (typed.map (Placed.mk 0)) gap
      tag ((asTrivia ending).map (Placed.mk 0)) ⟨0, ⟨⟨.newline, ['\n']⟩, .recordSplit⟩⟩ rfl (by simp; rfl)
      (@hmap (fun role => role = .inner ∨ role = .fieldNamed) _ htyped.roles) hnamed hgap htag hnone
      (@hmap (· = .trivia) _ role_of_mem_asTrivia) rfl
  rw [hsource, TypeExpr.readOrKeep_render htype] at hline
  rw [fieldsIn_place_eq]
  cases literal with
  | none =>
      have hfields := hline [] none (by simp) (by simp) fun _ => rfl
      simpa [fieldLine, fieldEnding, tagged, Placed.text, Marked.text] using hfields
  | some text =>
      have hfields := hline [⟨0, ⟨⟨.blank, [' ']⟩, .trivia⟩⟩] (some ⟨0, ⟨⟨.string, text⟩, .tag⟩⟩) (by simp; rfl)
        (by simp; rfl) (by simp)
      simpa [fieldLine, fieldEnding, tagged, Placed.text, Marked.text] using hfields

namespace Scan

theorem lexemes_ending {field : NewField} {newline : Text} (hnewline : IsLineEnding newline) (rest : Text)
    (htag : ∀ tag ∈ field.tag, '\x60' ∉ tag ∧ tag.head? ≠ some '\x22') :
    ∃ ending : List Lexeme, (∀ lexeme ∈ ending, lexeme.kind = .blank) ∧
      lexemes (field.tagText ++ (newline ++ rest)) =
        (fieldEnding field.literal ending).map Marked.lexeme ++ lexemes rest := by
  obtain ⟨ending, hending, hline⟩ : ∃ ending : List Lexeme, (∀ lexeme ∈ ending, lexeme.kind = .blank) ∧
      lexemes (newline ++ rest) = ending ++ ⟨.newline, ['\n']⟩ :: lexemes rest := by
    have hspace := hnewline.isSpace
    obtain rfl | rfl := hnewline
    · exact ⟨[], by simp, lexemes_line hspace rfl rest⟩
    · exact ⟨[⟨.blank, ['\r']⟩], by simp, lexemes_line hspace rfl rest⟩
  refine ⟨ending, hending, ?_⟩
  obtain ⟨htext, hliteral⟩ | ⟨tag, hbackquote, htext, hliteral⟩ := field.tagText_eq htag
  · rw [htext, hliteral, List.nil_append, hline]
    simp [fieldEnding, tagged]
  · have hblank : lexemes ([' '] ++ ('\x60' :: (tag ++ ['\x60']) ++ (newline ++ rest))) =
        lexemes [' '] ++ lexemes ('\x60' :: (tag ++ ['\x60']) ++ (newline ++ rest)) := by
      apply lexemes_white (List.forall_mem_singleton.mpr (by decide))
      intro c hc
      obtain rfl := Option.some.inj hc
      decide
    rw [lexemes_backquoted hbackquote, hline] at hblank
    rw [htext, hliteral]
    refine hblank.trans ?_
    simp [fieldEnding, tagged]
    rfl

theorem lexemes_simpleLine {field : NewField} {newline rest : Text} (hname : isIdentifier field.name)
    (htype : field.type.isSimple) (htag : ∀ tag ∈ field.tag, '\x60' ∉ tag ∧ tag.head? ≠ some '\x22')
    (hnewline : IsLineEnding newline)
    (hstray : ∀ lexeme ∈ lexemes (field.line newline ++ rest), lexeme.kind ≠ .stray) :
    ∃ ending : List Lexeme, (∀ lexeme ∈ ending, lexeme.kind = .blank) ∧
      lexemes (field.line newline ++ rest) = [⟨ofWord field.name, field.name⟩, ⟨.blank, [' ']⟩] ++
        (field.type.lexemes ++ ((fieldEnding field.literal ending).map Marked.lexeme ++ lexemes rest)) := by
  obtain ⟨ending, hending, hafter⟩ := lexemes_ending hnewline rest htag
  have hblank : lexemes ([' '] ++ (field.type.render ++ (field.tagText ++ (newline ++ rest)))) =
      lexemes [' '] ++ lexemes (field.type.render ++ (field.tagText ++ (newline ++ rest))) := by
    apply lexemes_white (List.forall_mem_singleton.mpr (by decide))
    intro c hc
    obtain ⟨first, others, hrender, -⟩ := TypeExpr.head_render htype
    apply TypeExpr.not_isSpace_render htype c
    rw [hrender] at hc ⊢
    obtain rfl := Option.some.inj hc
    exact List.mem_cons_self
  have hword : ∀ d ∈ (field.tagText ++ (newline ++ rest)).head?, ¬ Text.isWordPart d := by
    intro d hd
    have hcases : d = ' ' ∨ d = '\n' ∨ d = '\r' := by
      obtain ⟨htext, -⟩ | ⟨tag, -, htext, -⟩ := field.tagText_eq htag
      · rw [htext] at hd
        obtain rfl | rfl := hnewline
        · exact .inr (.inl (Option.some.inj hd).symm)
        · exact .inr (.inr (Option.some.inj hd).symm)
      · rw [htext] at hd
        exact .inl (Option.some.inj hd).symm
    obtain rfl | rfl | rfl := hcases <;> decide
  have hnamed := (lexemes_fieldLine hname hstray).trans (congrArg _ hblank)
  rw [hnamed] at hstray ⊢
  have htypeStray := (List.forall_mem_append.mp (List.forall_mem_cons.mp hstray).2).2
  refine ⟨ending, hending, ?_⟩
  rw [lexemes_type htype hword htypeStray, hafter]
  rfl

end Scan

namespace Declaration.HasRecord

variable {declaration edited : Declaration} {before others : List TypeSpec} {spec : TypeSpec} {record : Record}
  {gap front body white trivia after tail : List Marked} {head close : Marked} {inside bottom final : List Frame}

/-- Where a field is written, its line is read from the one field to where a further one can begin. -/
theorem exists_fieldLine {field : NewField} {newline : Text}
    (hrecord : declaration.HasRecord before spec others record gap head front body white close trivia after tail
      inside bottom final)
    (hname : isIdentifier field.name) (htype : field.type.isSimple)
    (htag : ∀ tag ∈ field.tag, '\x60' ∉ tag ∧ tag.head? ≠ some '\x22') (hnewline : IsLineEnding newline)
    (hparse : Declaration.parse (spliceBefore declaration.text record.close record.indent newline
      fun indent => field.render indent newline) = .ok edited) :
    ∃ typed ending, TypesField field.type typed ∧
      Scan.lexemes (field.line newline ++ spliceRest declaration.text record.close) =
        (fieldLine field.name typed field.literal ending).map Marked.lexeme ++
          Scan.lexemes (spliceRest declaration.text record.close) ∧
      Reads (.type (.fields true) :: bottom) (fieldLine field.name typed field.literal ending)
        (.type (.fields true) :: bottom) := by
  obtain ⟨gap', parting, added, tail', final', hother, -, -, -, hreads, hlexemes, hnamed⟩ :=
    hrecord.spliced hname hnewline hparse
  obtain ⟨indent, hindent, hrest⟩ := hrecord.lexemes_spliceRest
  have hstray : ∀ lexeme ∈ Scan.lexemes (field.line newline ++ spliceRest declaration.text record.close),
      lexeme.kind ≠ .stray := by
    intro lexeme hlexeme
    apply hother.lexemes_ne_stray
    rw [← hlexemes, List.mem_append] at hlexeme
    obtain hlexeme | hlexeme := hlexeme
    all_goals simp only [hother.lexemes, List.map_append, List.map_cons, List.mem_append, List.mem_cons, hlexeme,
      or_true, true_or]
  obtain ⟨ending, hending, hline⟩ := Scan.lexemes_simpleLine hname htype htag hnewline hstray
  rw [hline] at hlexemes
  have hloose : ¬ isLoose close.lexeme.kind := by
    rw [show close.lexeme.kind = .mark .closeBrace from hrecord.close_kind]
    decide
  have hsplit : added.map Marked.lexeme ++ tail'.map Marked.lexeme =
      ([⟨ofWord field.name, field.name⟩, ⟨.blank, [' ']⟩] ++ (field.type.lexemes ++
        ((fieldEnding field.literal ending).map Marked.lexeme ++ indent))) ++
          close.lexeme :: (trivia ++ after ++ tail).map Marked.lexeme := by
    rw [hlexemes, hrest]
    simp
  obtain ⟨back, hadded, -⟩ :=
    @split_before_tail _ (fun lexeme => isLoose lexeme.kind) _ _ _ _ _ hsplit hother.isLoose_tail hloose
  rw [List.append_assoc, List.append_assoc, List.append_assoc] at hadded
  -- Name, type and ending are read one after the other, each from what the one before leaves.
  have hfollow : FollowName ((fieldEnding field.literal ending).map Marked.lexeme ++
      (indent ++ close.lexeme :: back)) :=
    followName_fieldEnding hending hindent hrecord.close_kind
  have hword (kind : LexemeKind) (hword : isWord kind) : (Frame.type (.fields true)).move kind =
      .take .field [.type (.fieldName true), fieldFloor] := by
    cases kind <;> first | rfl | cases hword
  have hfirst : Reads (.type (.fields true) :: bottom)
      [⟨⟨ofWord field.name, field.name⟩, .field⟩, ⟨⟨.blank, [' ']⟩, .trivia⟩]
      (.type (.fieldName true) :: fieldFloor :: bottom) :=
    .step (hreads.advance_name hadded hword fun word => by cases word <;> rfl) (.step rfl (.refl _))
  obtain ⟨rest, rfl, hrestLexemes, hreads⟩ := hfirst.continue_from hreads hadded
  obtain ⟨typed, more, frame, rfl, htyped, -, hframe, htypedReads, -⟩ :=
    hreads.split_fieldType hrestLexemes hfollow
  refine ⟨typed, ending, htyped, ?_,
    hfirst.append (htypedReads.append (reads_ending hframe hending field.literal bottom))⟩
  rw [hline, fieldLine, List.map_append, List.map_append, htyped.lexemes]
  simp

end Declaration.HasRecord

theorem getElem?_append_cons_of_ne {α : Type} {left right : List α} {i : Nat} (a b : α) (hi : i ≠ left.length) :
    (left ++ a :: right)[i]? = (left ++ b :: right)[i]? := by
  by_cases hlt : i < left.length
  · rw [List.getElem?_append_left hlt, List.getElem?_append_left hlt]
  · obtain ⟨k, hk⟩ : ∃ k, i - left.length = k + 1 := ⟨i - left.length - 1, by omega⟩
    rw [List.getElem?_append_right (by omega), List.getElem?_append_right (by omega), hk, List.getElem?_cons_succ,
      List.getElem?_cons_succ]

namespace SourceFile

variable {file edited : SourceFile}

/-- Where one type of a declaration is changed, all other locations lead to what they led to. -/
theorem typeSpec?_of_ne {earlier later : List Declaration} {old new : Declaration}
    {before before' others others' : List TypeSpec} {spec spec' : TypeSpec} {other : TypeLocation}
    (hsplit : file.declarations = earlier ++ old :: later) (hold : old.typeSpecs = before ++ spec :: others)
    (hnew : new.typeSpecs = before' ++ spec' :: others')
    (hbefore : before'.map TypeSpec.unplaced = before.map TypeSpec.unplaced)
    (hothers : others'.map TypeSpec.unplaced = others.map TypeSpec.unplaced)
    (hother : other ≠ ⟨earlier.length, before.length⟩) :
    (({ file with declarations := earlier ++ new :: later } : SourceFile).typeSpec? other).map TypeSpec.unplaced =
      (file.typeSpec? other).map TypeSpec.unplaced := by
  by_cases hdeclaration : other.declaration = earlier.length
  · have hspec : other.spec ≠ (before.map TypeSpec.unplaced).length := by
      rw [List.length_map]
      intro hspec
      exact hother (by rw [← hdeclaration, ← hspec])
    have hspecs : (new.typeSpecs[other.spec]?).map TypeSpec.unplaced =
        (old.typeSpecs[other.spec]?).map TypeSpec.unplaced := by
      rw [← List.getElem?_map, ← List.getElem?_map, hnew, hold, List.map_append, List.map_append, List.map_cons,
        List.map_cons, hbefore, hothers]
      exact getElem?_append_cons_of_ne _ _ hspec
    simpa [typeSpec?, hsplit, hdeclaration] using hspecs
  · unfold typeSpec?
    rw [hsplit, getElem?_append_cons_of_ne new old hdeclaration]

/-- A field with identifiers for names and a tag between backquotes comes after the fields that the struct type had,
with its name, its type and its tag, and no other comes. Every other type keeps its name, its fields or its type, and
whether it is an alias. -/
theorem fields_of_appendField {text : Text} {location : TypeLocation} {field : NewField}
    (hparse : parse text = .ok file) (hname : isIdentifier field.name) (htype : field.type.isSimple)
    (htag : ∀ tag ∈ field.tag, '\x60' ∉ tag ∧ tag.head? ≠ some '\x22')
    (happend : file.appendField location field = .ok edited) :
    ∃ spec record record', file.typeSpec? location = some spec ∧ spec.body = .record record ∧
      edited.typeSpec? location = some ⟨spec.name, spec.isAlias, .record record'⟩ ∧
      record'.fields = record.fields ++ [⟨field.name, field.type, field.literal, false⟩] ∧
      ∀ other ≠ location,
        (edited.typeSpec? other).map TypeSpec.unplaced = (file.typeSpec? other).map TypeSpec.unplaced := by
  have hread := isRead_of_parse hparse
  obtain ⟨earlier, old, later, before, spec, others, record, new, hsplit, rfl, hspecs, hbody, hnew, rfl⟩ :=
    appendField_cases happend
  obtain ⟨gap, head, front, body, white, close, trivia, after, tail, inside, bottom, final, hrecord⟩ :=
    (hread old (by simp [hsplit])).exists_hasRecord hspecs hbody
  obtain ⟨typed, ending, htyped, hline, hreads⟩ :=
    hrecord.exists_fieldLine hname htype htag file.isLineEnding_lineEnding hnew
  obtain ⟨before', record', others', htypes, hbefore, hfields, hothers⟩ :=
    hrecord.typeSpecs_of_line hname file.isLineEnding_lineEnding hnew hline hreads
      (isBody_fieldLine field.name field.literal ending htyped.roles)
  rw [Structure.fieldsIn_fieldLine field.name field.literal htype htyped] at hfields
  have hlength : before'.length = before.length := by simpa using congrArg List.length hbefore
  refine ⟨spec, record, record', ?_, hbody, ?_, hfields, ?_⟩
  · simp [typeSpec?, hsplit, hspecs]
  · simp [typeSpec?, htypes, ← hlength]
  · intro other hne
    exact typeSpec?_of_ne hsplit hspecs htypes hbefore hothers hne

theorem fields_of_appendField_grouped :
    let text := "package a\r\n\r\ntype (\r\n\tA = int\r\n\tB struct \x7b X, Z int; /* c */ \x7d; C []B\r\n)\r\n".toList
    let type : TypeExpr :=
      .mapping (.pointer (.verbatim "K".toList)) (.slice (.qualified "time".toList "Time".toList))
    let field : NewField := ⟨['Y'], type, some "json:\x22y\x22".toList, some "When.".toList⟩
    ∃ file edited spec record record', parse text = .ok file ∧ isIdentifier field.name ∧ field.type.isSimple ∧
      (∀ tag ∈ field.tag, '\x60' ∉ tag ∧ tag.head? ≠ some '\x22') ∧
      file.appendField ⟨0, 1⟩ field = .ok edited ∧
      file.typeSpec? ⟨0, 1⟩ = some spec ∧ spec.body = .record record ∧
      edited.typeSpec? ⟨0, 1⟩ = some ⟨spec.name, spec.isAlias, .record record'⟩ ∧
      record'.fields = record.fields ++ [⟨['Y'], type, some "\x60json:\x22y\x22\x60".toList, false⟩] ∧
      ∀ other ≠ (⟨0, 1⟩ : TypeLocation),
        (edited.typeSpec? other).map TypeSpec.unplaced = (file.typeSpec? other).map TypeSpec.unplaced := by
  repeat rw [String.toList_ofList]
  intro text type field
  have hrun : (parse text).toOption.any fun file => (file.appendField ⟨0, 1⟩ field).toOption.isSome := by
    decide +kernel
  obtain ⟨file, hfile, happend⟩ := (Option.any_eq_true ..).mp hrun
  obtain ⟨edited, hedited⟩ := Option.isSome_iff_exists.mp happend
  have hparse := eq_ok_of_toOption hfile
  have happend := eq_ok_of_toOption hedited
  have hname : isIdentifier field.name := by decide
  have htype : field.type.isSimple := by decide
  have htag : ∀ tag ∈ field.tag, '\x60' ∉ tag ∧ tag.head? ≠ some '\x22' := by
    rintro tag ⟨⟩
    decide
  obtain ⟨spec, record, record', hresult⟩ := fields_of_appendField hparse hname htype htag happend
  exact ⟨file, edited, spec, record, record', hparse, hname, htype, htag, happend, hresult⟩

end SourceFile

end GoGraft
