import GoGraft.Proofs.RecordRuns

/-!
# Runs through a type specification

The head of a type specification is its name, its parameters and the sign of an alias. After each of them the machine
waits for a type, with nothing else open in the specification. If the type is a struct type, what follows is its body.
-/

namespace GoGraft.Grammar

variable {kind : LexemeKind} {role : Role} {stack next : List Frame} {marked : List Marked}

theorem Reads.skip_trivia (hreads : Reads stack marked next) (hbelow : Below 5 stack) :
    (next = stack ∧ ∀ m ∈ marked, m.role = .trivia) ∨
      ∃ before m after middle, marked = before ++ m :: after ∧ Reads stack before stack ∧
        (∀ other ∈ before, other.role = .trivia) ∧ m.role ≠ .trivia ∧
        advance stack m.kind = some (m.role, middle) ∧ Reads middle after next := by
  induction hreads with
  | refl => exact .inl ⟨rfl, by simp⟩
  | @step stack middle final m marked hadvance hreads ih =>
      by_cases hm : m.role = .trivia
      · rw [hm] at hadvance
        obtain ⟨rfl, -⟩ := advance_trivia hadvance hbelow
        obtain ⟨hnext, htrivia⟩ | ⟨before, first, after, middle, rfl, hskip, hbefore, hrest⟩ := ih hbelow
        · exact .inl ⟨hnext, List.forall_mem_cons.mpr ⟨hm, htrivia⟩⟩
        · exact .inr ⟨m :: before, first, after, middle, rfl, .step (hm ▸ hadvance) hskip,
            List.forall_mem_cons.mpr ⟨hm, hbefore⟩, hrest⟩
      · exact .inr ⟨[], m, marked, middle, rfl, .refl stack, by simp, hm, hadvance, hreads⟩

/-- The machine waits for the type of a type specification. -/
def AwaitsType (stack : List Frame) : Prop :=
  stack = [.decl (.typeName true)] ∨ stack = [.type (.due true)] ∨ stack = [.decl (.typeBody true)]

theorem AwaitsType.below (hawaits : AwaitsType stack) : Below 3 stack := by
  obtain rfl | rfl | rfl := hawaits
  all_goals
    simp
    decide

theorem AwaitsType.standing (hawaits : AwaitsType stack) : Standing stack := by
  obtain rfl | rfl | rfl := hawaits <;> exact ⟨rfl, trivial⟩

theorem Move.role_of_ofStart {given : Role} {rest pushed : List Frame} {start : Option (List Frame)}
    (hstart : Move.ofStart given rest start = .take role pushed) : given = role := by
  cases start with
  | none => cases hstart
  | some frames => exact (Move.take.inj hstart).1

theorem TypeFrame.take_head {frame : TypeFrame} {pushed below : List Frame} (hhigh : frame.level = 3)
    (hfooting : (Frame.type frame).footing.Holds below) (hmove : frame.move kind = .take role pushed)
    (hinner : role ≠ .inner) : AwaitsType (pushed ++ below) := by
  cases frame
  case constraint top | constraintName top | constraintEnd top | moreConstraints top =>
    cases top
    case false => cases hhigh
    obtain rfl : below = [.decl (.typeBody true)] := hfooting
    simp only [TypeFrame.move] at hmove
    repeat' split at hmove
    all_goals first
      | cases hmove; exact .inr (.inr rfl)
      | exact absurd (Move.role_of_ofStart hmove).symm hinner
      | cases hmove; exact absurd rfl hinner
      | cases hmove
  all_goals
    simp only [TypeFrame.level, levelOnTop] at hhigh
    first
      | cases hhigh
      | split at hhigh <;> cases hhigh

theorem ExprFrame.role_of_take {frame : ExprFrame} {pushed : List Frame} (hhigh : frame.level = 3)
    (hmove : frame.move kind = .take role pushed) : role = .inner := by
  apply Decidable.byContradiction
  intro hinner
  cases frame
  case index indexed | indexItem indexed _ _ | indexEnd indexed _ _ _ | moreIndices indexed _ =>
    simp only [ExprFrame.move] at hmove
    repeat' split at hmove
    all_goals first
      | exact absurd (Move.role_of_ofStart hmove).symm hinner
      | cases hmove; exact absurd rfl hinner
      | cases hmove
  all_goals cases hhigh

theorem DeclFrame.take_head {frame : DeclFrame} {pushed below : List Frame} (hhigh : frame.level = 3)
    (hfooting : (Frame.decl frame).footing.Holds below) (hmove : frame.move kind = .take role pushed)
    (hlow : ¬ role.level ≤ 0) (hinner : role ≠ .inner) : AwaitsType (pushed ++ below) := by
  cases frame
  case typeName top | typeBracket top | typeParameter top | typeParameterIndex top
      | typeParameterIndexEnd top _ _ | typeParameterGroup top | typeParameterGroupItem top
      | typeParameterGroupEnd top _ _ | lengthOrConstraint top | lengthOrConstraintEnd top _ _
      | typeBody top | typeBodyOrAlias top =>
    cases top
    case false => cases hhigh
    obtain rfl : below = [] := hfooting
    simp only [DeclFrame.move, ExprFrame.move] at hmove
    repeat' split at hmove
    all_goals first
      | exact absurd (Move.role_of_ofStart hmove).symm hinner
      | cases hmove; exact .inr (.inl rfl)
      | cases hmove; exact .inr (.inr rfl)
      | cases hmove; exact absurd rfl hinner
      | cases hmove; exact absurd ((Shape.move_within _ .free kind).of_take ‹_›).1 hlow
      | cases hmove
  all_goals
    simp only [DeclFrame.level, levelOnTop] at hhigh
    first
      | cases hhigh
      | split at hhigh <;> cases hhigh

theorem Frame.take_head {frame : Frame} {pushed below : List Frame} (hlevel : frame.level ≤ 3)
    (hstanding : Standing (frame :: below)) (hmove : frame.move kind = .take role pushed)
    (hrole : role = .aliasing ∨ role = .parameters) : AwaitsType (pushed ++ below) := by
  have hhigh : frame.level = 3 := by
    have hwithin := ((frame.move_within kind).of_take hmove).1
    obtain rfl | rfl := hrole
    all_goals
      change 3 ≤ _ at hwithin
      omega
  have hlow : ¬ role.level ≤ 0 := by
    obtain rfl | rfl := hrole <;> decide
  have hinner : role ≠ .inner := by
    rintro rfl
    exact hlow (Nat.le_refl 0)
  obtain ⟨hfooting, -⟩ := hstanding
  cases frame with
  | type frame => exact frame.take_head hhigh hfooting hmove hinner
  | expr frame => exact absurd (frame.role_of_take hhigh hmove) hinner
  | decl frame => exact frame.take_head hhigh hfooting hmove hlow hinner
  | stmt | word | finished => cases hhigh
  | expect due =>
      simp only [Frame.level] at hhigh
      split at hhigh <;> cases hhigh

theorem read_head (hstanding : Standing stack) (hbelow : Below 3 stack)
    (hread : read stack kind = some (role, next)) (hrole : role = .aliasing ∨ role = .parameters) :
    AwaitsType next := by
  obtain ⟨frame, bottom, pushed, hsettles, hmove, rfl⟩ := read_eq_some_iff.mp hread
  exact frame.take_head (hsettles.level_le hbelow).1 (hsettles.standing hstanding) hmove hrole

theorem advance_head (hstanding : Standing stack) (hbelow : Below 3 stack)
    (hadvance : advance stack kind = some (role, next)) (hrole : role = .aliasing ∨ role = .parameters) :
    AwaitsType next := by
  obtain ⟨rfl, -⟩ | hread | ⟨mark, left, right, first, middle, -, -, hleft, hright⟩ :=
    advance_cases hadvance
  · obtain hrole | hrole := hrole <;> cases hrole
  · exact read_head hstanding hbelow hread hrole
  · exact read_head (hstanding.read hbelow hleft) (read_below hleft hbelow).2 hright hrole

theorem advance_struct (hawaits : AwaitsType stack) :
    advance stack (.keyword .structWord) = some (.inner, [.type (.recordOpen true)]) := by
  obtain rfl | rfl | rfl := hawaits <;> rfl

theorem advance_recordOpen (hadvance : advance [.type (.recordOpen true)] kind = some (role, next))
    (hrole : role ≠ .trivia) :
    kind = .mark .openBrace ∧ role = .recordOpen ∧ next = [.type (.fields true)] := by
  obtain ⟨htrivia, -⟩ | hread := advance_whole hadvance fun mark left right hhalves => by
    cases mark <;> cases hhalves <;> rfl
  · exact absurd htrivia hrole
  · have hmove := move_of_read hread
    simp only [Frame.move, TypeFrame.move] at hmove
    split at hmove
    · cases hmove
      exact ⟨rfl, rfl, rfl⟩
    · cases hmove

def Marked.isTrivia (m : Marked) : Bool :=
  m.role = .trivia

/-- The lexemes of the head of a type specification. -/
def Marked.isHead (m : Marked) : Bool :=
  m.role = .name || m.role = .parameters || m.role = .aliasing

/-- The front of a struct type, from behind the head of its specification to its opening brace. -/
structure OpensRecord (front : List Marked) (opening : Marked) : Prop where
  struct : (front.dropWhile Marked.isTrivia).head?.map Marked.kind = some (.keyword .structWord)
  front_roles : ∀ m ∈ front, m.role = .trivia ∨ m.role = .inner
  opens : opening.role = .recordOpen
  brace : opening.kind = .mark .openBrace

theorem dropWhile_trivia {before after : List Marked} {m : Marked}
    (hbefore : ∀ other ∈ before, other.role = .trivia) (hm : m.role ≠ .trivia) :
    (before ++ m :: after).dropWhile Marked.isTrivia = m :: after := by
  rw [List.dropWhile_append_of_pos (by simpa [Marked.isTrivia] using hbefore),
    List.dropWhile_cons_of_neg (by simpa [Marked.isTrivia] using hm)]

/-- Where a type is due and a struct type stands, it runs to its closing brace. -/
theorem Reads.split_record {type : List Marked} (hreads : Reads stack type next)
    (hawaits : AwaitsType stack) (hleaves : Leaves kind next)
    (hstruct : (type.dropWhile Marked.isTrivia).head?.map Marked.kind = some (.keyword .structWord)) :
    ∃ front opening body close last rest, type = front ++ opening :: (body ++ close :: rest) ∧
      OpensRecord front opening ∧ Reads stack (front ++ [opening]) [.type (.fields true)] ∧
      ReadsBody [.type (.fields true)] body close last ∧ ∀ m ∈ rest, m.role = .trivia := by
  have hopening : Below 5 [.type (.recordOpen true)] := by
    simp
    decide
  obtain ⟨-, htrivia⟩ | ⟨before, word, after, middle, rfl, hskip, hbefore, hword, hadvance, hafter⟩ :=
    hreads.skip_trivia (hawaits.below.mono (by decide))
  · have hnil : (type ++ []).dropWhile Marked.isTrivia = [] :=
      List.dropWhile_append_of_pos (by simpa [Marked.isTrivia] using htrivia)
    rw [List.append_nil] at hnil
    rw [hnil] at hstruct
    cases hstruct
  rw [dropWhile_trivia hbefore hword] at hstruct
  have hkind : word.kind = .keyword .structWord := Option.some.inj hstruct
  have hopen := advance_struct hawaits
  rw [← hkind, hadvance] at hopen
  obtain ⟨hinner, rfl⟩ := Prod.mk.inj (Option.some.inj hopen)
  obtain ⟨rfl, -⟩ | ⟨between, opening, more, middle, rfl, hskip', hbetween, hnot, hopens, hmore⟩ :=
    hafter.skip_trivia hopening
  · cases hleaves with
    | last hleave =>
        simp only [Frame.move, TypeFrame.move] at hleave
        split at hleave <;> cases hleave
  obtain ⟨hbrace, hrole, rfl⟩ := advance_recordOpen hopens hnot
  obtain ⟨hbody, -⟩ | ⟨body, close, rest, last, rfl, hbody, hrest⟩ := hmore.split_close (.inl rfl)
  · exact absurd hleaves hbody.not_leaves
  refine ⟨before ++ word :: between, opening, body, close, last, rest, by simp, ?_, ?_, hbody, hrest.of_nil.2⟩
  · refine ⟨?_, ?_, hrole, hbrace⟩
    · rw [dropWhile_trivia hbefore hword]
      exact hstruct
    · intro m hm
      rw [List.mem_append, List.mem_cons] at hm
      obtain hm | rfl | hm := hm
      · exact .inl (hbefore m hm)
      · exact .inr hinner
      · exact .inl (hbetween m hm)
  · rw [List.append_assoc]
    exact hskip.append (.step hadvance (hskip'.append (.step hopens (.refl _))))

/-- The head of a type specification, and the type that follows it. -/
theorem Reads.split_head (hreads : Reads stack marked next) (hstanding : Standing stack)
    (hbelow : Below 3 stack) :
    ∃ heads type middle, marked = heads ++ type ∧ Reads stack heads middle ∧ Reads middle type next ∧
      (∀ m ∈ type, ¬ m.isHead) ∧
      ((heads = [] ∧ middle = stack) ∨
        (AwaitsType middle ∧ ∃ last, heads.getLast? = some last ∧ last.isHead)) := by
  induction hreads with
  | refl stack => exact ⟨[], [], stack, rfl, .refl stack, .refl stack, by simp, .inl ⟨rfl, rfl⟩⟩
  | @step stack middle final m marked hadvance hreads ih =>
      obtain ⟨hrole, hmiddle⟩ := advance_below hadvance hbelow
      obtain ⟨heads, type, last, rfl, hheads, htype, hplain, ⟨rfl, rfl⟩ | ⟨hawaits, head, hhead, hisHead⟩⟩ :=
        ih (hstanding.advance hbelow hadvance) hmiddle
      · by_cases hm : m.isHead
        · have hawaits : AwaitsType last := by
            apply advance_head hstanding hbelow hadvance
            simp only [Marked.isHead, Bool.or_eq_true, decide_eq_true_eq] at hm
            obtain (hname | hparameters) | haliasing := hm
            · rw [hname] at hrole
              obtain ⟨htrivia, -⟩ | hlevel := hrole
              · cases htrivia
              · exact absurd hlevel (by decide)
            · exact .inr hparameters
            · exact .inl haliasing
          exact ⟨[m], type, last, rfl, .step hadvance (.refl last), htype, hplain,
            .inr ⟨hawaits, m, rfl, hm⟩⟩
        · exact ⟨[], m :: type, stack, rfl, .refl stack, .step hadvance htype,
            List.forall_mem_cons.mpr ⟨hm, hplain⟩, .inl ⟨rfl, rfl⟩⟩
      · refine ⟨m :: heads, type, last, rfl, .step hadvance hheads, htype, hplain,
          .inr ⟨hawaits, head, ?_, hisHead⟩⟩
        rw [List.getLast?_cons, hhead]
        rfl

theorem Reads.unique {other : List Frame} (hreads : Reads stack marked next)
    (hother : Reads stack marked other) : other = next := by
  induction hreads with
  | refl =>
      cases hother
      rfl
  | step hadvance _ ih =>
      cases hother with
      | step hadvance' hrest =>
          obtain ⟨-, rfl⟩ := Prod.mk.inj (Option.some.inj (hadvance.symm.trans hadvance'))
          exact ih hrest

/-- The floor of a specification in a group. -/
def specFloor : Frame := .decl (.typeEnd true)

theorem isFloor_specFloor : specFloor.IsFloor where
  resume reading := rfl
  refuse {mark left right} hhalves := by
    cases mark <;> cases hhalves <;> exact ⟨rfl, rfl⟩

theorem read_specFloor (hread : read [specFloor] kind = some (role, next)) :
    (role = .groupSplit ∧ next = [.decl (.typeGroup true)]) ∨
      (role = .groupClose ∧ kind = .mark .closeParen ∧ next = []) := by
  have hmove := move_of_read hread
  simp only [specFloor, Frame.move, DeclFrame.move] at hmove
  repeat' split at hmove
  all_goals cases hmove
  · exact .inl ⟨rfl, rfl⟩
  · exact .inr ⟨rfl, ‹_›, rfl⟩

theorem advance_typeGroup (hadvance : advance [.decl (.typeGroup true)] kind = some (role, next))
    (hrole : role ≠ .trivia) :
    (role = .name ∧ next = [.decl (.typeName true), specFloor]) ∨
      (role = .groupClose ∧ kind = .mark .closeParen ∧ next = []) := by
  obtain ⟨htrivia, -⟩ | hread := advance_whole hadvance fun mark left right hhalves => by
    cases mark <;> cases hhalves <;> rfl
  · exact absurd htrivia hrole
  · have hmove := move_of_read hread
    simp only [Frame.move, DeclFrame.move] at hmove
    repeat' split at hmove
    all_goals cases hmove
    · exact .inr ⟨rfl, ‹_›, rfl⟩
    · exact .inl ⟨rfl, rfl⟩

/-- What a type specification stands on: nothing, or the group that it is in. -/
def SpecBottom (bottom : List Frame) : Prop :=
  bottom = [] ∨ bottom = [specFloor]

theorem Reads.above {upper bottom : List Frame} (hreads : Reads (upper ++ bottom) marked next)
    (hbottom : SpecBottom bottom) (hroles : ∀ m ∈ marked, m.role ≠ .groupSplit ∧ m.role ≠ .groupClose) :
    ∃ rest, Reads upper marked rest ∧ next = rest ++ bottom := by
  obtain rfl | rfl := hbottom
  · rw [List.append_nil] at hreads
    exact ⟨next, hreads, by simp⟩
  · obtain habove | ⟨before, m, after, rest, middle, rfl, -, -, hread, -⟩ :=
      hreads.split_floor isFloor_specFloor
    · exact habove
    · obtain ⟨hsplit, hclose⟩ := hroles m (by simp)
      obtain ⟨hrole, -⟩ | ⟨hrole, -⟩ := read_specFloor hread
      · exact absurd hrole hsplit
      · exact absurd hrole hclose

/-- A specification runs to the end of its item, or to the lexeme that parts it from the next or closes the group. -/
theorem Reads.split_spec {upper bottom : List Frame} (hreads : Reads (upper ++ bottom) marked next)
    (hbottom : SpecBottom bottom) (hleaves : Leaves kind next) :
    ∃ spec after last kind, marked = spec ++ after ∧ Reads upper spec last ∧ Leaves kind last ∧
      (bottom = [] → after = []) ∧ ∀ m ∈ after.head?, m.role = .groupSplit ∨ m.role = .groupClose := by
  obtain rfl | rfl := hbottom
  · rw [List.append_nil] at hreads
    exact ⟨marked, [], next, kind, by simp, hreads, hleaves, fun _ => rfl, by simp⟩
  · obtain ⟨rest, -, rfl⟩ | ⟨before, m, after, rest, middle, rfl, hbefore, hends, hread, -⟩ :=
      hreads.split_floor isFloor_specFloor
    · obtain ⟨reading, hleave⟩ := hleaves.leave_last isFloor_specFloor.resume
      simp only [specFloor, Frame.move, DeclFrame.move] at hleave
      repeat' split at hleave
      all_goals cases hleave
    · refine ⟨before, m :: after, rest, m.kind, rfl, hbefore, hends, by rintro ⟨⟩, ?_⟩
      simpa using (read_specFloor hread).imp And.left And.left

/-- The machine is in a group of type specifications. -/
def InGroup (stack : List Frame) : Prop :=
  stack = [.decl (.typeGroup true)] ∨ ∃ upper, Below 3 upper ∧ stack = upper ++ [specFloor]

theorem InGroup.step (hgroup : InGroup stack) (hadvance : advance stack kind = some (role, next)) :
    (InGroup next ∧ role ≠ .groupClose ∧ (role = .groupSplit → next = [.decl (.typeGroup true)])) ∨
      (role = .groupClose ∧ kind = .mark .closeParen ∧ next = []) := by
  have hnext : [Frame.decl (.typeName true), specFloor] = [.decl (.typeName true)] ++ [specFloor] := rfl
  obtain rfl | ⟨upper, hupper, rfl⟩ := hgroup
  · by_cases hrole : role = .trivia
    · rw [hrole] at hadvance ⊢
      obtain ⟨rfl, -⟩ := advance_trivia hadvance (by simp; decide)
      exact .inl ⟨.inl rfl, nofun, nofun⟩
    · obtain ⟨rfl, rfl⟩ | hclose := advance_typeGroup hadvance hrole
      · exact .inl ⟨.inr ⟨_, by simp; decide, hnext⟩, nofun, nofun⟩
      · exact .inr hclose
  · obtain ⟨rest, hrest, rfl⟩ | ⟨-, hread⟩ := advance_append isFloor_specFloor hadvance
    · obtain ⟨hrole, hbelow⟩ := advance_below hrest hupper
      refine .inl ⟨.inr ⟨rest, hbelow, rfl⟩, ?_⟩
      constructor
      all_goals
        rintro rfl
        obtain ⟨htrivia, -⟩ | hlevel := hrole
        · cases htrivia
        · exact absurd hlevel (by decide)
    · obtain ⟨hsplit, rfl⟩ | hclose := read_specFloor hread
      · exact .inl ⟨.inl rfl, by rw [hsplit]; nofun, fun _ => rfl⟩
      · exact .inr hclose

theorem InGroup.not_leaves (hgroup : InGroup stack) : ¬ Leaves kind stack := by
  intro hleaves
  obtain rfl | ⟨upper, -, rfl⟩ := hgroup
  · cases hleaves with
    | last hleave =>
        simp only [Frame.move, DeclFrame.move] at hleave
        repeat' split at hleave
        all_goals cases hleave
  · obtain ⟨reading, hleave⟩ := hleaves.leave_last isFloor_specFloor.resume
    simp only [specFloor, Frame.move, DeclFrame.move] at hleave
    repeat' split at hleave
    all_goals cases hleave

theorem Reads.split_group (hreads : Reads stack marked next) (hgroup : InGroup stack) (hleaves : Leaves kind next) :
    ∃ front close rest, marked = front ++ close :: rest ∧ Reads stack (front ++ [close]) [] ∧
      close.role = .groupClose ∧ close.kind = .mark .closeParen ∧ (∀ m ∈ front, m.role ≠ .groupClose) ∧
      ∀ m ∈ rest, m.role = .trivia := by
  induction hreads with
  | refl => exact absurd hleaves hgroup.not_leaves
  | @step stack middle final m marked hadvance hreads ih =>
      obtain ⟨hmiddle, hrole, -⟩ | ⟨hclose, hkind, rfl⟩ := hgroup.step hadvance
      · obtain ⟨front, close, rest, rfl, hfront, hclose, hkind, hroles, hrest⟩ := ih hmiddle hleaves
        exact ⟨m :: front, close, rest, rfl, .step hadvance hfront, hclose, hkind,
          List.forall_mem_cons.mpr ⟨hrole, hroles⟩, hrest⟩
      · exact ⟨[], m, marked, rfl, .step hadvance (.refl _), hclose, hkind, by simp, hreads.of_nil.2⟩

theorem Reads.after_groupSplit (hreads : Reads stack marked next) (hgroup : InGroup stack)
    (hroles : ∀ m ∈ marked, m.role ≠ .groupClose) :
    InGroup next ∧ ∀ last ∈ marked.getLast?, last.role = .groupSplit → next = [.decl (.typeGroup true)] := by
  induction hreads with
  | refl => exact ⟨hgroup, by simp⟩
  | @step stack middle final m marked hadvance hreads ih =>
      obtain ⟨hm, hroles⟩ := List.forall_mem_cons.mp hroles
      obtain ⟨hmiddle, -, hsplit⟩ | ⟨hclose, -⟩ := hgroup.step hadvance
      · obtain ⟨hnext, hlast⟩ := ih hmiddle hroles
        refine ⟨hnext, ?_⟩
        cases hreads with
        | refl => simpa using hsplit
        | step => simpa using hlast
      · exact absurd hclose hm

end GoGraft.Grammar
