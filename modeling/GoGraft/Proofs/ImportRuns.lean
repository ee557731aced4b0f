import GoGraft.Proofs.Boundaries
import GoGraft.Proofs.Stacks

/-!
# Runs over import declarations

Between the keyword and the end of an import declaration the machine has one of six stacks, and apart from trivia it
takes one of ten steps.
-/

namespace GoGraft.Grammar

/-- What can name an import: a word or a dot. -/
def isAlias (kind : LexemeKind) : Bool :=
  kind matches .mark .dot | .word | .maker

/-- The steps of an import declaration, trivia apart. -/
inductive ImportStep : List Frame → LexemeKind → Role → List Frame → Prop where
  | opens : ImportStep [.decl .imports] (.mark .openParen) .groupOpen [.decl .importGroup]
  | path : ImportStep [.decl .imports] .string .path []
  | named {kind : LexemeKind} (hkind : isAlias kind) :
      ImportStep [.decl .imports] kind .aliasing [.decl .importPath]
  | namedPath : ImportStep [.decl .importPath] .string .path []
  | groupPath : ImportStep [.decl .importGroup] .string .path [.decl .importEnd]
  | groupNamed {kind : LexemeKind} (hkind : isAlias kind) :
      ImportStep [.decl .importGroup] kind .aliasing [.decl .importPath, .decl .importEnd]
  | groupNamedPath :
      ImportStep [.decl .importPath, .decl .importEnd] .string .path [.decl .importEnd]
  | splits {kind : LexemeKind} (hkind : isTerminator kind) :
      ImportStep [.decl .importEnd] kind .groupSplit [.decl .importGroup]
  | closesEmpty : ImportStep [.decl .importGroup] (.mark .closeParen) .groupClose []
  | closes : ImportStep [.decl .importEnd] (.mark .closeParen) .groupClose []

inductive ImportStack : List Frame → Prop where
  | start : ImportStack [.decl .imports]
  | path : ImportStack [.decl .importPath]
  | group : ImportStack [.decl .importGroup]
  | groupPath : ImportStack [.decl .importPath, .decl .importEnd]
  | groupEnd : ImportStack [.decl .importEnd]
  | done : ImportStack []

variable {stack next : List Frame} {kind : LexemeKind} {role : Role} {marked : List Marked}

theorem advance_import (hstack : ImportStack stack) (hadvance : advance stack kind = some (role, next)) :
    (role = .trivia ∧ next = stack ∧ Scan.isTrivial kind) ∨ ImportStep stack kind role next := by
  cases hstack
  all_goals
    cases kind
    case keyword word => cases word <;> cases hadvance
    case mark mark =>
      cases mark <;> cases hadvance
      all_goals first
        | exact .inr .opens
        | exact .inr .closes
        | exact .inr .closesEmpty
        | exact .inr (.named rfl)
        | exact .inr (.groupNamed rfl)
        | exact .inr (.splits rfl)
    all_goals
      cases hadvance
    all_goals first
      | exact .inl ⟨rfl, rfl, rfl⟩
      | exact .inr .path
      | exact .inr .namedPath
      | exact .inr .groupPath
      | exact .inr .groupNamedPath
      | exact .inr (.named rfl)
      | exact .inr (.groupNamed rfl)
      | exact .inr (.splits rfl)

theorem ImportStep.importStack (hstep : ImportStep stack kind role next) : ImportStack next := by
  cases hstep <;> constructor

end GoGraft.Grammar
