import GoGraft.Proofs.TypeTexts

/-!
# Runs over type expressions

The machine reads a type expression from where a type is due to the end of its last name, and does not touch what stands
below. An identifier can be a keyword, and some keywords begin a type; but then the type goes on after it, so that what
follows a name cannot follow them.
-/

namespace GoGraft.Grammar

open Lexeme

variable {kind : LexemeKind} {role : Role} {top frame : Frame} {stack next below bottom pushed final : List Frame}
  {marked : List Marked} {rest : List Lexeme}

theorem advance_of_settles (hsettles : Settles kind stack frame bottom) (hmove : frame.move kind = .take role pushed)
    (hnext : next = pushed ++ bottom) (hblank : kind ≠ .blank) (hcomment : kind ≠ .comment) :
    advance stack kind = some (role, next) := by
  have hread := read_of_settles hsettles hmove
  rw [← hnext] at hread
  cases kind with
  | blank => exact absurd rfl hblank
  | comment => exact absurd rfl hcomment
  | newline | mark =>
      rw [advance, hread]
      rfl
  | _ => exact hread

theorem read_of_refuse (hmove : top.move kind = .refuse) : read (top :: below) kind = none := by
  rw [read, settle.eq_def, hmove]

/-- What can follow a name where a type stands, a newline and trivia apart. -/
def followsName : LexemeKind → Bool
  | .mark .closeBracket | .mark .closeBrace | .mark .dot | .string => true
  | _ => false

theorem followsName_cases (hkind : followsName kind) :
    kind = .mark .closeBracket ∨ kind = .mark .closeBrace ∨ kind = .mark .dot ∨ kind = .string := by
  unfold followsName at hkind
  split at hkind
  · exact .inl rfl
  · exact .inr (.inl rfl)
  · exact .inr (.inr (.inl rfl))
  · exact .inr (.inr (.inr rfl))
  · cases hkind

/-- The first lexeme that is neither white space nor a comment can follow a name. -/
def FollowName (lexemes : List Lexeme) : Prop :=
  ∃ trivial next others, lexemes = trivial ++ next :: others ∧
    (∀ lexeme ∈ trivial, Scan.isTrivial lexeme.kind) ∧ followsName next.kind

theorem followName_cons {next : Lexeme} (hnext : followsName next.kind) (others : List Lexeme) :
    FollowName (next :: others) :=
  ⟨[], next, others, rfl, by simp, hnext⟩

/-- The frame takes nothing that can follow a name. -/
def Frame.Waits (frame : Frame) : Prop :=
  frame.move .newline = .refuse ∧ ∀ kind, followsName kind → frame.move kind = .refuse

theorem waits_of_keyword {word : Keyword}
    (hmove : (Frame.type (.due false)).move (.keyword word) = .take role pushed) :
    ∃ frame others, pushed = frame :: others ∧ frame.Waits := by
  cases word <;> cases hmove
  all_goals
    refine ⟨_, _, rfl, rfl, ?_⟩
    intro kind hkind
    obtain rfl | rfl | rfl | rfl := followsName_cases hkind <;> rfl

namespace Reads

theorem exists_step {lexeme : Lexeme} (hreads : Reads stack marked final)
    (hlexemes : marked.map Marked.lexeme = lexeme :: rest) :
    ∃ role next more, marked = ⟨lexeme, role⟩ :: more ∧ advance stack lexeme.kind = some (role, next) ∧
      Reads next more final ∧ more.map Marked.lexeme = rest := by
  cases hreads with
  | refl => cases hlexemes
  | @step _ next _ m more hadvance hmore =>
      obtain ⟨rfl, hmoreLexemes⟩ := List.cons.inj hlexemes
      exact ⟨m.role, next, more, rfl, hadvance, hmore, hmoreLexemes⟩

theorem not_of_waits (hreads : Reads (top :: below) marked final) (hwaits : top.Waits)
    (hfollow : FollowName (marked.map Marked.lexeme)) : False := by
  obtain ⟨trivial, next, others, hlexemes, htrivial, hnext⟩ := hfollow
  induction trivial generalizing marked with
  | nil =>
      obtain ⟨role, after, more, -, hadvance, -⟩ := hreads.exists_step hlexemes
      have hread := @read_of_refuse _ _ below (hwaits.2 _ hnext)
      obtain hkind | hkind | hkind | hkind := followsName_cases hnext
      all_goals
        rw [hkind] at hadvance hread
        simp only [advance, hread] at hadvance
        cases hadvance
  | cons first trivial ih =>
      obtain ⟨hfirst, htrivial⟩ := List.forall_mem_cons.mp htrivial
      obtain ⟨role, after, more, -, hadvance, hmore, hlexemes⟩ := hreads.exists_step hlexemes
      have hnewline := @read_of_refuse _ _ below hwaits.1
      obtain rfl : top :: below = after := by
        cases hkind : first.kind <;> rw [hkind] at hfirst hadvance <;> try cases hfirst
        all_goals
          simp only [advance, hnewline] at hadvance
          exact (Prod.mk.inj (Option.some.inj hadvance)).2
      exact ih hmore hlexemes htrivial

end Reads

theorem ofWord_cases (text : Text) :
    (∃ word, ofWord text = .keyword word) ∨ ofWord text = .word ∨ ofWord text = .maker := by
  unfold ofWord
  split
  · exact .inl ⟨_, rfl⟩
  · split
    · exact .inr (.inr rfl)
    · exact .inr (.inl rfl)

theorem Reads.advance_due {text : Text} (hreads : Reads (.type (.due false) :: below) marked final)
    (hlexemes : marked.map Marked.lexeme = ⟨ofWord text, text⟩ :: rest) (hfollow : FollowName rest) :
    advance (.type (.due false) :: below) (ofWord text) = some (.inner, .type .name :: below) := by
  obtain ⟨word, hword⟩ | hword | hword := ofWord_cases text
  · obtain ⟨role, next, more, -, hadvance, hmore, rfl⟩ := hreads.exists_step hlexemes
    have hread : read (.type (.due false) :: below) (.keyword word) = some (role, next) := by
      rw [← hadvance, hword]
      rfl
    obtain ⟨frame, bottom, pushed, hsettles, hmove, rfl⟩ := read_eq_some_iff.mp hread
    cases hsettles with
    | here =>
        obtain ⟨frame, others, rfl, hwaits⟩ := waits_of_keyword hmove
        exact (hmore.not_of_waits hwaits hfollow).elim
    | down hleave => cases word <;> cases hleave
  · rw [hword]
    exact advance_of_settles (.here _ _) rfl rfl (by decide) (by decide)
  · rw [hword]
    exact advance_of_settles (.here _ _) rfl rfl (by decide) (by decide)

theorem Reads.advance_name {text : Text} (hreads : Reads (top :: below) marked final)
    (hlexemes : marked.map Marked.lexeme = ⟨ofWord text, text⟩ :: rest)
    (hword : ∀ kind, isWord kind → top.move kind = .take role pushed)
    (hkeyword : ∀ word, top.move (.keyword word) = .refuse) :
    advance (top :: below) (ofWord text) = some (role, pushed ++ below) := by
  obtain ⟨word, hkind⟩ | hkind | hkind := ofWord_cases text
  · obtain ⟨role, next, more, -, hadvance, -⟩ := hreads.exists_step hlexemes
    have hread : read (top :: below) (.keyword word) = none := read_of_refuse (hkeyword word)
    dsimp only at hadvance
    rw [hkind] at hadvance
    cases hread.symm.trans hadvance
  · rw [hkind]
    exact advance_of_settles (.here _ _) (hword _ rfl) rfl (by decide) (by decide)
  · rw [hkind]
    exact advance_of_settles (.here _ _) (hword _ rfl) rfl (by decide) (by decide)

def asInner (lexemes : List Lexeme) : List Marked :=
  lexemes.map (⟨·, .inner⟩)

@[simp]
theorem map_lexeme_asInner (lexemes : List Lexeme) : (asInner lexemes).map Marked.lexeme = lexemes := by
  rw [asInner, List.map_map]
  exact List.map_id lexemes

/-- A frame at the end of a name, where a type can end. -/
def Frame.IsName (frame : Frame) : Prop :=
  frame = .type .name ∨ frame = .type .qualified

theorem reads_mapWord (below : List Frame) :
    Reads (.type (.due false) :: below)
      [⟨⟨.keyword .mapWord, "map".toList⟩, .inner⟩, ⟨⟨.mark .openBracket, ['[']⟩, .inner⟩]
      (.type (.due false) :: expectMark .closeBracket :: .type (.due false) :: below) :=
  .step (advance_of_settles (.here _ _) rfl rfl (by decide) (by decide))
    (.step (advance_of_settles (.here _ _) rfl rfl (by decide) (by decide)) (.refl _))

theorem reads_keyEnd {frame : Frame} (hframe : frame.IsName) (below : List Frame) :
    Reads (frame :: expectMark .closeBracket :: .type (.due false) :: below)
      [⟨⟨.mark .closeBracket, [']']⟩, .inner⟩] (.type (.due false) :: below) := by
  refine .step ?_ (.refl _)
  obtain rfl | rfl := hframe
  all_goals exact advance_of_settles (.down rfl rfl (.here _ _)) rfl rfl (by decide) (by decide)

/-- A type where one is due is read to the end of its last name. -/
theorem Reads.split_type {type : TypeExpr} (hreads : Reads (.type (.due false) :: below) marked final)
    (hlexemes : marked.map Marked.lexeme = type.lexemes ++ rest) (hfollow : FollowName rest) :
    ∃ more frame, marked = asInner type.lexemes ++ more ∧ more.map Marked.lexeme = rest ∧ frame.IsName ∧
      Reads (.type (.due false) :: below) (asInner type.lexemes) (frame :: below) ∧
      Reads (frame :: below) more final := by
  induction type generalizing below marked rest with
  | pointer target ih =>
      have hstar : Reads (.type (.due false) :: below) [⟨⟨.mark .star, ['*']⟩, .inner⟩] (.type (.due false) :: below) :=
        .step (advance_of_settles (.here _ _) rfl rfl (by decide) (by decide)) (.refl _)
      obtain ⟨others, rfl, hothers, hreads⟩ := hstar.continue_from hreads hlexemes
      obtain ⟨more, frame, rfl, hmore, hframe, htarget, hreads⟩ := ih hreads hothers hfollow
      exact ⟨more, frame, rfl, hmore, hframe, hstar.append htarget, hreads⟩
  | slice element ih =>
      have hbrackets : Reads (.type (.due false) :: below)
          [⟨⟨.mark .openBracket, ['[']⟩, .inner⟩, ⟨⟨.mark .closeBracket, [']']⟩, .inner⟩]
          (.type (.due false) :: below) :=
        .step (advance_of_settles (.here _ _) rfl rfl (by decide) (by decide))
          (.step (advance_of_settles (.here _ _) rfl rfl (by decide) (by decide)) (.refl _))
      obtain ⟨others, rfl, hothers, hreads⟩ := hbrackets.continue_from hreads hlexemes
      obtain ⟨more, frame, rfl, hmore, hframe, helement, hreads⟩ := ih hreads hothers hfollow
      exact ⟨more, frame, rfl, hmore, hframe, hbrackets.append helement, hreads⟩
  | mapping key value ihKey ihValue =>
      have hopen := reads_mapWord below
      obtain ⟨others, rfl, hothers, hreads⟩ := hopen.continue_from hreads hlexemes
      obtain ⟨others, frame, rfl, hothers, hframe, hkey, hreads⟩ :=
        ihKey hreads (hothers.trans (List.append_assoc ..)) (followName_cons rfl _)
      have hclose := reads_keyEnd hframe below
      obtain ⟨others, rfl, hothers, hreads⟩ := hclose.continue_from hreads hothers
      obtain ⟨more, frame, rfl, hmore, hframe', hvalue, hreads⟩ := ihValue hreads hothers hfollow
      have htyped : asInner (TypeExpr.mapping key value).lexemes =
          [⟨⟨.keyword .mapWord, "map".toList⟩, .inner⟩, ⟨⟨.mark .openBracket, ['[']⟩, .inner⟩] ++
            (asInner key.lexemes ++ ([⟨⟨.mark .closeBracket, [']']⟩, .inner⟩] ++ asInner value.lexemes)) := by
        simp [asInner, TypeExpr.lexemes]
      refine ⟨more, frame, by simp [htyped], hmore, hframe', ?_, hreads⟩
      rw [htyped]
      exact hopen.append (hkey.append (hclose.append hvalue))
  | qualified package name =>
      have hpackage : Reads (.type (.due false) :: below)
          [⟨⟨ofWord package, package⟩, .inner⟩, ⟨⟨.mark .dot, ['.']⟩, .inner⟩] (.type .selector :: below) :=
        .step (hreads.advance_due hlexemes (followName_cons rfl _))
          (.step (advance_of_settles (.here _ _) rfl rfl (by decide) (by decide)) (.refl _))
      obtain ⟨others, rfl, hothers, hreads⟩ := hpackage.continue_from hreads hlexemes
      have hname : Reads (.type .selector :: below) [⟨⟨ofWord name, name⟩, .inner⟩] (.type .qualified :: below) :=
        .step (hreads.advance_name hothers (fun _ hword => if_pos hword) fun _ => rfl) (.refl _)
      obtain ⟨more, rfl, hmore, hreads⟩ := hname.continue_from hreads hothers
      exact ⟨more, .type .qualified, rfl, hmore, .inr rfl, hpackage.append hname, hreads⟩
  | verbatim text =>
      have hname : Reads (.type (.due false) :: below) [⟨⟨ofWord text, text⟩, .inner⟩] (.type .name :: below) :=
        .step (hreads.advance_due hlexemes hfollow) (.refl _)
      obtain ⟨more, rfl, hmore, hreads⟩ := hname.continue_from hreads hlexemes
      exact ⟨more, .type .name, rfl, hmore, .inl rfl, hname, hreads⟩

/-- The type of a field begins as a type does where one is due, if it does not begin with a bracket. -/
theorem advance_fieldName_type {kind : LexemeKind}
    (hkind : kind = .mark .star ∨ kind = .keyword .mapWord ∨ ∃ text, kind = ofWord text)
    (hadvance : advance (.type (.fieldName true) :: fieldFloor :: bottom) kind = some (role, next)) :
    role = .fieldNamed ∧
      advance (.type (.due false) :: .type (.tag true) :: fieldFloor :: bottom) kind = some (.inner, next) := by
  have htake {frames : List Frame} (hmove : (Frame.type (.fieldName true)).move kind =
        .take .fieldNamed (frames ++ [.type (.tag true)]))
      (hdue : (Frame.type (.due false)).move kind = .take .inner frames) (hblank : kind ≠ .blank)
      (hcomment : kind ≠ .comment) : role = .fieldNamed ∧
        advance (.type (.due false) :: .type (.tag true) :: fieldFloor :: bottom) kind = some (.inner, next) := by
    have hnamed := @advance_of_settles _ _ _ _ (frames ++ .type (.tag true) :: fieldFloor :: bottom) _ _
      (.here (.type (.fieldName true)) (fieldFloor :: bottom)) hmove (by simp) hblank hcomment
    obtain ⟨rfl, rfl⟩ := Prod.mk.inj (Option.some.inj (hadvance.symm.trans hnamed))
    exact ⟨rfl, advance_of_settles (.here _ _) hdue rfl hblank hcomment⟩
  have hkeyword (word : Keyword) (hword : kind = .keyword word) : role = .fieldNamed ∧
      advance (.type (.due false) :: .type (.tag true) :: fieldFloor :: bottom) kind = some (.inner, next) := by
    subst hword
    have hread : read (.type (.fieldName true) :: fieldFloor :: bottom) (.keyword word) = some (role, next) := hadvance
    obtain ⟨frame, more, pushed, hsettles, hmove, -⟩ := read_eq_some_iff.mp hread
    cases hsettles with
    | here => cases word <;> first | exact htake rfl rfl (by decide) (by decide) | cases hmove
    | down _ hresume hrest =>
        obtain rfl := Option.some.inj hresume
        cases hrest with
        | here => cases word <;> cases hmove
        | down hleave => cases word <;> cases hleave
  obtain rfl | hmap | ⟨text, rfl⟩ := hkind
  · exact htake rfl rfl (by decide) (by decide)
  · exact hkeyword _ hmap
  · obtain ⟨word, hword⟩ | hword | hword := ofWord_cases text
    · exact hkeyword word hword
    · rw [hword] at htake ⊢
      exact htake rfl rfl (by decide) (by decide)
    · rw [hword] at htake ⊢
      exact htake rfl rfl (by decide) (by decide)

/-- The lexemes of the type of a field, one of which shows that the word before them was a name. -/
structure TypesField (type : TypeExpr) (typed : List Marked) : Prop where
  lexemes : typed.map Marked.lexeme = type.lexemes
  roles : ∀ m ∈ typed, m.role = .inner ∨ m.role = .fieldNamed
  named : ∃ m ∈ typed, m.role = .fieldNamed

theorem Reads.split_fieldType {type : TypeExpr}
    (hreads : Reads (.type (.fieldName true) :: fieldFloor :: bottom) marked final)
    (hlexemes : marked.map Marked.lexeme = type.lexemes ++ rest) (hfollow : FollowName rest) :
    ∃ typed more frame, marked = typed ++ more ∧ TypesField type typed ∧ more.map Marked.lexeme = rest ∧ frame.IsName ∧
      Reads (.type (.fieldName true) :: fieldFloor :: bottom) typed
        (frame :: .type (.tag true) :: fieldFloor :: bottom) ∧
      Reads (frame :: .type (.tag true) :: fieldFloor :: bottom) more final := by
  have hinner (lexemes : List Lexeme) : ∀ m ∈ asInner lexemes, m.role = .inner ∨ m.role = .fieldNamed := by
    simp [asInner]
  have hfirst : (∃ element, type = .slice element) ∨ ∃ first others, type.lexemes = first :: others ∧
      (first.kind = .mark .star ∨ first.kind = .keyword .mapWord ∨ ∃ text, first.kind = ofWord text) := by
    cases type with
    | pointer target => exact .inr ⟨_, _, rfl, .inl rfl⟩
    | slice element => exact .inl ⟨element, rfl⟩
    | mapping key value => exact .inr ⟨_, _, rfl, .inr (.inl rfl)⟩
    | qualified package name => exact .inr ⟨_, _, rfl, .inr (.inr ⟨package, rfl⟩)⟩
    | verbatim text => exact .inr ⟨_, _, rfl, .inr (.inr ⟨text, rfl⟩)⟩
  obtain ⟨element, rfl⟩ | ⟨first, others, hfirst, hkind⟩ := hfirst
  · -- After a name the opening bracket can still be that of type arguments, and only the closing one tells.
    have hbrackets : Reads (.type (.fieldName true) :: fieldFloor :: bottom)
        [⟨⟨.mark .openBracket, ['[']⟩, .inner⟩, ⟨⟨.mark .closeBracket, [']']⟩, .fieldNamed⟩]
        (.type (.due false) :: .type (.tag true) :: fieldFloor :: bottom) :=
      .step (advance_of_settles (.here _ _) rfl rfl (by decide) (by decide))
        (.step (advance_of_settles (.here _ _) rfl rfl (by decide) (by decide)) (.refl _))
    obtain ⟨others, rfl, hothers, hreads⟩ := hbrackets.continue_from hreads hlexemes
    obtain ⟨more, frame, rfl, hmore, hframe, helement, hreads⟩ := hreads.split_type hothers hfollow
    refine ⟨_, more, frame, (List.append_assoc ..).symm, ⟨by simp [TypeExpr.lexemes], ?_, by simp⟩, hmore, hframe,
      hbrackets.append helement, hreads⟩
    exact List.forall_mem_append.mpr ⟨by simp, hinner element.lexemes⟩
  -- Any other first lexeme leads to the stack that it leads to where a type is due; only its role is another.
  · rw [hfirst, List.cons_append] at hlexemes
    obtain ⟨role, next, after, rfl, hadvance, hafter, hothers⟩ := hreads.exists_step hlexemes
    obtain ⟨rfl, hdue⟩ := advance_fieldName_type hkind hadvance
    have hall : Reads (.type (.due false) :: .type (.tag true) :: fieldFloor :: bottom) (⟨first, .inner⟩ :: after)
        final := .step hdue hafter
    obtain ⟨more, frame, hmarked, hmore, hframe, htyped, hmoreReads⟩ := @split_type _ _ _ rest type hall
      (by simp [hfirst, hothers]) hfollow
    have hasInner : asInner type.lexemes = ⟨first, .inner⟩ :: asInner others := by
      rw [hfirst]
      rfl
    rw [hasInner] at hmarked htyped
    obtain ⟨-, rfl⟩ := List.cons.inj hmarked
    have hrest : Reads next (asInner others) (frame :: .type (.tag true) :: fieldFloor :: bottom) := by
      cases htyped with
      | step hadvance hrest =>
          obtain ⟨-, rfl⟩ := Prod.mk.inj (Option.some.inj (hdue.symm.trans hadvance))
          exact hrest
    refine ⟨⟨first, .fieldNamed⟩ :: asInner others, more, frame, rfl, ⟨by simp [hfirst], ?_, by simp⟩, hmore, hframe,
      .step hadvance hrest, hmoreReads⟩
    exact List.forall_mem_cons.mpr ⟨.inr rfl, hinner others⟩

end GoGraft.Grammar
