import GoGraft.Proofs.Places
import GoGraft.Proofs.SpecRuns

/-!
# Lists of fields

The fields of a struct type are read off the parts between its splits, without the trivia around each part. What is
read from a list that a split divides is what is read from the two sides, and it does not depend on where the lexemes
stand.
-/

namespace GoGraft.Structure

open Grammar

section Parts

variable {role : Role} {lexemes part : List Placed} {parts : List (List Placed)}

theorem splitAt_cons_of_eq {first : Placed} {rest : List Placed} (hfirst : first.role = role) :
    splitAt role (first :: rest) = [] :: splitAt role rest := by
  simp [splitAt, hfirst]

theorem splitAt_cons_of_ne {first : Placed} {rest : List Placed} (hfirst : first.role ≠ role)
    (hrest : splitAt role rest = part :: parts) :
    splitAt role (first :: rest) = (first :: part) :: parts := by
  unfold splitAt at hrest ⊢
  rw [List.foldr_cons, hrest, if_neg hfirst]

theorem exists_splitAt (role : Role) (lexemes : List Placed) :
    ∃ part parts, splitAt role lexemes = part :: parts := by
  induction lexemes with
  | nil => exact ⟨[], [], rfl⟩
  | cons first rest ih =>
      obtain ⟨part, parts, hrest⟩ := ih
      by_cases hfirst : first.role = role
      · exact ⟨[], splitAt role rest, splitAt_cons_of_eq hfirst⟩
      · exact ⟨first :: part, parts, splitAt_cons_of_ne hfirst hrest⟩

theorem splitAt_eq_cons (hsplit : splitAt role lexemes = part :: parts) :
    (∀ placed ∈ part, placed.role ≠ role) ∧
      ((lexemes = part ∧ parts = []) ∨
        ∃ split rest, lexemes = part ++ split :: rest ∧ split.role = role ∧ parts = splitAt role rest) := by
  induction lexemes generalizing part with
  | nil =>
      obtain ⟨rfl, rfl⟩ := List.cons.inj hsplit
      exact ⟨by simp, .inl ⟨rfl, rfl⟩⟩
  | cons first rest ih =>
      by_cases hfirst : first.role = role
      · rw [splitAt_cons_of_eq hfirst] at hsplit
        obtain ⟨rfl, rfl⟩ := List.cons.inj hsplit
        exact ⟨by simp, .inr ⟨first, rest, rfl, hfirst, rfl⟩⟩
      · obtain ⟨part', parts', hrest⟩ := exists_splitAt role rest
        rw [splitAt_cons_of_ne hfirst hrest] at hsplit
        obtain ⟨rfl, rfl⟩ := List.cons.inj hsplit
        obtain ⟨hpart, hends⟩ := ih hrest
        refine ⟨List.forall_mem_cons.mpr ⟨hfirst, hpart⟩, ?_⟩
        obtain ⟨rfl, rfl⟩ | ⟨split, rest, rfl, hends⟩ := hends
        · exact .inl ⟨rfl, rfl⟩
        · exact .inr ⟨split, rest, rfl, hends⟩

theorem splitAt_append_of_ne {left : List Placed} (hleft : ∀ placed ∈ left, placed.role ≠ role)
    (hsplit : splitAt role lexemes = part :: parts) :
    splitAt role (left ++ lexemes) = (left ++ part) :: parts := by
  induction left with
  | nil => exact hsplit
  | cons first left ih =>
      obtain ⟨hfirst, hleft⟩ := List.forall_mem_cons.mp hleft
      exact splitAt_cons_of_ne hfirst (ih hleft)

theorem splitAt_of_ne (hlexemes : ∀ placed ∈ lexemes, placed.role ≠ role) :
    splitAt role lexemes = [lexemes] := by
  have happend := splitAt_append_of_ne hlexemes (show splitAt role [] = [[]] from rfl)
  rwa [List.append_nil] at happend

theorem splitAt_append_cons {left right : List Placed} {split : Placed} (hrole : split.role = role) :
    splitAt role (left ++ split :: right) = splitAt role left ++ splitAt role right := by
  induction left with
  | nil => exact splitAt_cons_of_eq hrole
  | cons first left ih =>
      by_cases hfirst : first.role = role
      · rw [List.cons_append, splitAt_cons_of_eq hfirst, splitAt_cons_of_eq hfirst, ih]
        rfl
      · obtain ⟨part, parts, hpart⟩ := exists_splitAt role left
        rw [hpart] at ih
        rw [List.cons_append, splitAt_cons_of_ne hfirst ih, splitAt_cons_of_ne hfirst hpart]
        rfl

/-- A part, and what stands before and after it. What stands before it gives the parts before it, whatever follows. -/
theorem splitAt_eq_append {before after : List (List Placed)}
    (hsplit : splitAt role lexemes = before ++ part :: after) :
    ∃ front back, lexemes = front ++ (part ++ back) ∧
      (∀ other, splitAt role (front ++ other) = before ++ splitAt role other) ∧
      (∀ last ∈ front.getLast?, last.role = role) ∧ (∀ placed ∈ part, placed.role ≠ role) ∧
      ∀ first ∈ back.head?, first.role = role := by
  induction before generalizing lexemes with
  | nil =>
      obtain ⟨hpart, ⟨rfl, -⟩ | ⟨split, rest, rfl, hrole, -⟩⟩ := splitAt_eq_cons hsplit
      · exact ⟨[], [], by simp, by simp, by simp, hpart, by simp⟩
      · exact ⟨[], split :: rest, by simp, by simp, by simp, hpart, by simpa using hrole⟩
  | cons first before ih =>
      obtain ⟨hfirst, ⟨-, hnil⟩ | ⟨split, rest, rfl, hrole, hrest⟩⟩ := splitAt_eq_cons hsplit
      · simp at hnil
      · obtain ⟨front, back, rfl, hfront, hlast, hpart, hback⟩ := ih hrest.symm
        refine ⟨first ++ split :: front, back, by simp, ?_, ?_, hpart, hback⟩
        · intro other
          rw [List.append_assoc, List.cons_append, splitAt_append_cons hrole, hfront, splitAt_of_ne hfirst]
          rfl
        · intro last hmem
          rw [List.getLast?_append, List.getLast?_cons] at hmem
          cases hend : front.getLast? with
          | none =>
              obtain rfl : split = last := by simpa [hend] using hmem
              exact hrole
          | some other =>
              obtain rfl : other = last := by simpa [hend] using hmem
              exact hlast other hend

end Parts

section Trim

variable {lexemes trivia : List Placed}

theorem dropWhile_isTrivia (htrivia : ∀ placed ∈ trivia, placed.role = .trivia) (rest : List Placed) :
    (trivia ++ rest).dropWhile Placed.isTrivia = rest.dropWhile Placed.isTrivia :=
  List.dropWhile_append_of_pos (by simpa [Placed.isTrivia] using htrivia)

theorem trim_trivia_append (htrivia : ∀ placed ∈ trivia, placed.role = .trivia) :
    trim (trivia ++ lexemes) = trim lexemes := by
  rw [trim, dropWhile_isTrivia htrivia, trim]

theorem trim_append_trivia (htrivia : ∀ placed ∈ trivia, placed.role = .trivia) :
    trim (lexemes ++ trivia) = trim lexemes := by
  have hreverse : ∀ placed ∈ trivia.reverse, placed.role = .trivia := by simpa using htrivia
  have hnil : trivia.dropWhile Placed.isTrivia = [] := by
    have happend := dropWhile_isTrivia htrivia []
    rwa [List.append_nil] at happend
  unfold trim
  rw [List.dropWhile_append]
  split
  · rename_i hempty
    rw [List.isEmpty_iff] at hempty
    rw [hempty, hnil]
  · rw [List.reverse_append, dropWhile_isTrivia hreverse]

theorem trim_append_cons {last : Placed} (hlast : last.role ≠ .trivia)
    (htrivia : ∀ placed ∈ trivia, placed.role = .trivia) :
    trim (lexemes ++ last :: trivia) = (lexemes ++ [last]).dropWhile Placed.isTrivia := by
  have hnot : ¬ last.isTrivia := by simpa [Placed.isTrivia] using hlast
  have hsplit : lexemes ++ last :: trivia = (lexemes ++ [last]) ++ trivia := by simp
  rw [hsplit, trim_append_trivia htrivia, trim]
  have hdrop : (lexemes ++ [last]).dropWhile Placed.isTrivia =
      lexemes.dropWhile Placed.isTrivia ++ [last] := by
    rw [List.dropWhile_append]
    split
    · rename_i hempty
      rw [List.isEmpty_iff] at hempty
      rw [hempty, List.dropWhile_cons_of_neg hnot, List.nil_append]
    · rfl
  rw [hdrop, List.reverse_append, List.reverse_singleton, List.singleton_append,
    List.dropWhile_cons_of_neg hnot]
  simp

end Trim

/-- The fields between the braces of a struct type. -/
def fieldsIn (lexemes : List Placed) : List Field :=
  (((splitAt .recordSplit lexemes).map trim).filter (!·.isEmpty)).flatMap fieldsOf

section Fields

variable {lexemes left right trivia : List Placed}

theorem fieldsIn_append_cons {split : Placed} (hsplit : split.role = .recordSplit) :
    fieldsIn (left ++ split :: right) = fieldsIn left ++ fieldsIn right := by
  simp [fieldsIn, splitAt_append_cons hsplit]

theorem fieldsIn_trivia_append (htrivia : ∀ placed ∈ trivia, placed.role = .trivia) :
    fieldsIn (trivia ++ lexemes) = fieldsIn lexemes := by
  obtain ⟨part, parts, hparts⟩ := exists_splitAt .recordSplit lexemes
  have hne : ∀ placed ∈ trivia, placed.role ≠ .recordSplit := by
    intro placed hplaced
    rw [htrivia placed hplaced]
    decide
  simp [fieldsIn, splitAt_append_of_ne hne hparts, hparts, trim_trivia_append htrivia]

/-- Every list of lexemes has its first part and, after a split, a shorter list. -/
theorem parts_induction {motive : List Placed → Prop} (role : Role)
    (hpart : ∀ part, (∀ placed ∈ part, placed.role ≠ role) → motive part)
    (hsplit : ∀ part split rest, split.role = role → motive rest → motive (part ++ split :: rest))
    (lexemes : List Placed) : motive lexemes := by
  generalize hlength : lexemes.length = length
  induction length using Nat.strongRecOn generalizing lexemes with
  | ind length ih =>
      obtain ⟨part, parts, hparts⟩ := exists_splitAt role lexemes
      obtain ⟨hne, ⟨rfl, -⟩ | ⟨split, rest, rfl, hrole, -⟩⟩ := splitAt_eq_cons hparts
      · exact hpart lexemes hne
      · refine hsplit part split rest hrole (ih rest.length ?_ rest rfl)
        rw [← hlength, List.length_append, List.length_cons]
        omega

theorem fieldsIn_append_trivia (htrivia : ∀ placed ∈ trivia, placed.role = .trivia) :
    fieldsIn (lexemes ++ trivia) = fieldsIn lexemes := by
  have hne : ∀ placed ∈ trivia, placed.role ≠ .recordSplit := by
    intro placed hplaced
    rw [htrivia placed hplaced]
    decide
  induction lexemes using parts_induction .recordSplit with
  | hpart part hpart =>
      have hboth : ∀ placed ∈ part ++ trivia, placed.role ≠ .recordSplit :=
        List.forall_mem_append.mpr ⟨hpart, hne⟩
      simp [fieldsIn, splitAt_of_ne hpart, splitAt_of_ne hboth, trim_append_trivia htrivia]
  | hsplit part split rest hrole ih =>
      rw [List.append_assoc, List.cons_append, fieldsIn_append_cons hrole, fieldsIn_append_cons hrole, ih]

theorem fieldsIn_append_white {white : List Placed}
    (hwhite : ∀ placed ∈ white, placed.role = .trivia ∨ placed.role = .recordSplit) :
    fieldsIn (lexemes ++ white) = fieldsIn lexemes := by
  induction white generalizing lexemes with
  | nil => rw [List.append_nil]
  | cons first white ih =>
      obtain ⟨hfirst, hwhite⟩ := List.forall_mem_cons.mp hwhite
      obtain hfirst | hfirst := hfirst
      · have htrivia : ∀ placed ∈ [first], placed.role = .trivia := by simpa using hfirst
        rw [List.append_cons, ih hwhite, fieldsIn_append_trivia htrivia]
      · have hnil := @ih [] hwhite
        rw [List.nil_append] at hnil
        rw [fieldsIn_append_cons hfirst, hnil]
        exact List.append_nil _

theorem fieldsIn_white_append {white : List Placed}
    (hwhite : ∀ placed ∈ white, placed.role = .trivia ∨ placed.role = .recordSplit) :
    fieldsIn (white ++ lexemes) = fieldsIn lexemes := by
  induction white with
  | nil => rfl
  | cons first white ih =>
      obtain ⟨hfirst, hwhite⟩ := List.forall_mem_cons.mp hwhite
      obtain hfirst | hfirst := hfirst
      · have htrivia : ∀ placed ∈ [first], placed.role = .trivia := by simpa using hfirst
        exact (fieldsIn_trivia_append htrivia).trans (ih hwhite)
      · exact (@fieldsIn_append_cons [] _ first hfirst).trans (ih hwhite)

/-- Fields are parted by white space with a split. -/
theorem fieldsIn_parted {white : List Placed}
    (hwhite : ∀ placed ∈ white, placed.role = .trivia ∨ placed.role = .recordSplit)
    (hsplit : ∃ placed ∈ white, placed.role = .recordSplit) :
    fieldsIn (left ++ (white ++ right)) = fieldsIn left ++ fieldsIn right := by
  obtain ⟨split, hmem, hrole⟩ := hsplit
  obtain ⟨before, after, rfl⟩ := List.append_of_mem hmem
  obtain ⟨hbefore, hafter⟩ := List.forall_mem_append.mp hwhite
  have hsplit : left ++ (before ++ split :: after ++ right) = (left ++ before) ++ split :: (after ++ right) := by
    simp
  rw [hsplit, fieldsIn_append_cons hrole, fieldsIn_append_white hbefore,
    fieldsIn_white_append (List.forall_mem_cons.mp hafter).2]

/-- A lexeme at another place. -/
def Placed.moved (move : Nat → Nat) (placed : Placed) : Placed :=
  ⟨move placed.start, placed.marked⟩

section Moved

variable (move : Nat → Nat)

theorem trim_moved (lexemes : List Placed) :
    trim (lexemes.map (Placed.moved move)) = (trim lexemes).map (Placed.moved move) := by
  simp only [trim, ← List.map_reverse, List.dropWhile_map]
  rfl

theorem splitAt_moved (role : Role) (lexemes : List Placed) :
    splitAt role (lexemes.map (Placed.moved move)) = (splitAt role lexemes).map (List.map (Placed.moved move)) := by
  induction lexemes with
  | nil => rfl
  | cons first rest ih =>
      rw [List.map_cons]
      by_cases hfirst : first.role = role
      · rw [splitAt_cons_of_eq hfirst, splitAt_cons_of_eq (show (first.moved move).role = role from hfirst), ih]
        rfl
      · obtain ⟨part, parts, hrest⟩ := exists_splitAt role rest
        rw [hrest] at ih
        rw [splitAt_cons_of_ne hfirst hrest,
          splitAt_cons_of_ne (show (first.moved move).role ≠ role from hfirst) ih]
        rfl

theorem source_moved (lexemes : List Placed) : source (lexemes.map (Placed.moved move)) = source lexemes := by
  rw [source, List.flatMap_map]
  rfl

theorem fieldsOf_moved (part : List Placed) : fieldsOf (part.map (Placed.moved move)) = fieldsOf part := by
  have htyped : (part.map (Placed.moved move)).takeWhile (·.role ≠ .tag) =
      (part.takeWhile (·.role ≠ .tag)).map (Placed.moved move) := List.takeWhile_map ..
  have htag : ((part.map (Placed.moved move)).find? (·.role = .tag)).map Placed.text =
      (part.find? (·.role = .tag)).map Placed.text := by
    rw [List.find?_map, Option.map_map]
    rfl
  have hnamed : (part.map (Placed.moved move)).any (·.role = .fieldNamed) = part.any (·.role = .fieldNamed) :=
    List.any_map
  generalize htypedEq : part.takeWhile (·.role ≠ .tag) = typed at htyped
  have hlast : afterLast (·.role = .field) (typed.map (Placed.moved move)) =
      (afterLast (·.role = .field) typed).map (Placed.moved move) := by
    unfold afterLast
    rw [← List.map_reverse, List.takeWhile_map, ← List.map_reverse]
    rfl
  have hnames : ((typed.map (Placed.moved move)).filter (·.role = .field)) =
      (typed.filter (·.role = .field)).map (Placed.moved move) := by
    rw [List.filter_map]
    rfl
  have hstar : (if (typed.map (Placed.moved move)).head?.any (·.marked.kind = .mark .star) then
        (typed.map (Placed.moved move)).drop 1 else typed.map (Placed.moved move)) =
      (if typed.head?.any (·.marked.kind = .mark .star) then typed.drop 1 else typed).map (Placed.moved move) := by
    rw [apply_ite (List.map (Placed.moved move)), List.head?_map, ← List.map_drop]
    cases typed <;> rfl
  unfold fieldsOf
  simp only [htyped, htag, hnamed, htypedEq, hlast, hstar, trim_moved, source_moved, hnames,
    List.map_map]
  rfl

/-- The declarations of fields between the braces of a struct type. -/
def fieldParts (lexemes : List Placed) : List (List Placed) :=
  ((splitAt .recordSplit lexemes).map trim).filter (!·.isEmpty)

theorem fieldParts_moved (lexemes : List Placed) :
    fieldParts (lexemes.map (Placed.moved move)) = (fieldParts lexemes).map (List.map (Placed.moved move)) := by
  have hempty : (fun part : List Placed => !part.isEmpty) ∘ List.map (Placed.moved move) =
      fun part => !part.isEmpty := by
    funext part
    cases part <;> rfl
  have htrim : trim ∘ List.map (Placed.moved move) = List.map (Placed.moved move) ∘ trim := by
    funext part
    exact trim_moved move part
  unfold fieldParts
  rw [splitAt_moved, List.map_map, htrim, ← List.map_map, List.filter_map, hempty]

theorem fieldsIn_moved (lexemes : List Placed) :
    fieldsIn (lexemes.map (Placed.moved move)) = fieldsIn lexemes := by
  change (fieldParts _).flatMap fieldsOf = (fieldParts _).flatMap fieldsOf
  rw [fieldParts_moved, List.flatMap_map]
  simp only [fieldsOf_moved]

end Moved

end Fields

end GoGraft.Structure
