import GoGraft.Text.Basic

/-! Edit scripts between two lists of lines: a shortest one, found by searching from both ends for a place where
the two searches meet, and then on both sides of that place. -/

namespace GoGraft.Diff

/-- The lines of a text with their ends: a newline, a carriage return, or the two together. -/
def lines (t : Text) : List Text :=
  t.foldr
    (fun c lines =>
      match c, lines with
      | '\n', lines => ['\n'] :: lines
      | '\r', ('\n' :: line) :: others => ('\r' :: '\n' :: line) :: others
      | '\r', lines => ['\r'] :: lines
      | c, [] => [[c]]
      | c, line :: others => (c :: line) :: others)
    []

inductive EditKind where
  | equal
  | delete
  | insert
deriving DecidableEq, Repr

/-- A run of lines that both sides share, or that only one of them has. The indices are those of its first
line on each side, or of the line that it stands before. -/
structure Edit where
  kind : EditKind
  oldIndex : Nat
  newIndex : Nat
  length : Nat
deriving DecidableEq, Repr

namespace Edit

def oldLength (edit : Edit) : Nat :=
  if edit.kind = .insert then 0 else edit.length

def newLength (edit : Edit) : Nat :=
  if edit.kind = .delete then 0 else edit.length

/-- The lines of an edit, given all lines of the old side. -/
def oldLines (edit : Edit) (old : List Text) : List Text :=
  (old.drop edit.oldIndex).take edit.oldLength

/-- The lines of an edit, given all lines of the new side. -/
def newLines (edit : Edit) (new : List Text) : List Text :=
  (new.drop edit.newIndex).take edit.newLength

end Edit

def commonPrefix : List Text → List Text → Nat
  | a :: as, b :: bs => if a = b then commonPrefix as bs + 1 else 0
  | _, _ => 0

def commonSuffix (as bs : List Text) : Nat :=
  commonPrefix as.reverse bs.reverse

/-- How far a search has come on each diagonal: the number of old lines passed there. -/
structure Frontier where
  reached : Array Nat
  offset : Nat

namespace Frontier

def start (depth : Nat) : Frontier :=
  ⟨Array.replicate (2 * depth + 2) 0, depth⟩

def get (frontier : Frontier) (diagonal : Int) : Nat :=
  frontier.reached.getD (diagonal + frontier.offset).toNat 0

def set (frontier : Frontier) (diagonal : Int) (x : Nat) : Frontier :=
  { frontier with reached := frontier.reached.setIfInBounds (diagonal + frontier.offset).toNat x }

/-- Where the search arrives on a diagonal with one edit more, before it follows equal lines. -/
def enter (frontier : Frontier) (edits : Nat) (diagonal : Int) : Nat :=
  if diagonal = -edits ||
      (diagonal ≠ edits && frontier.get (diagonal - 1) < frontier.get (diagonal + 1)) then
    frontier.get (diagonal + 1)
  else
    frontier.get (diagonal - 1) + 1

end Frontier

/-- A place between lines: the number of old lines and of new lines before it. -/
abbrev Place := Nat × Nat

/-- The number of equal lines from a place on, up to a bound. -/
def equalAhead (old new : Array Text) : (bound : Nat) → Place → Nat
  | 0, _ => 0
  | bound + 1, (x, y) =>
      match old[x]?, new[y]? with
      | some a, some b => if a = b then equalAhead old new bound (x + 1, y + 1) + 1 else 0
      | _, _ => 0

/-- The diagonals that a search with some number of edits looks at, in order. -/
def diagonals (edits : Nat) : List Int :=
  (List.range (edits + 1)).map fun i : Nat => (edits : Int) - 2 * (i : Int)

/-- One of the two searches: from the front of both sides, or from their back with both sides reversed. -/
structure Search where
  old : Array Text
  new : Array Text
  /-- Whether this search looks for the meeting place, given the distance of a diagonal from the other
  search's own. -/
  mayMeet : Nat → Bool

/-- Goes on from each diagonal. The answer is the new frontier and, when the other search was met, the places
at which the run of equal lines began and ended. -/
def Search.advance (search : Search) (edits : Nat) (other : Frontier) :
    List Int → Frontier → Frontier × Option (Place × Place)
  | [], frontier => (frontier, none)
  | diagonal :: others, frontier =>
      let delta : Int := (search.old.size : Int) - search.new.size
      let x := frontier.enter edits diagonal
      let y := ((x : Int) - diagonal).toNat
      let run := equalAhead search.old search.new search.old.size (x, y)
      let frontier := frontier.set diagonal (x + run)
      if search.mayMeet (diagonal - delta).natAbs &&
          search.old.size ≤ x + run + other.get (delta - diagonal) then
        (frontier, some ((x, y), (x + run, y + run)))
      else
        search.advance edits other others frontier

/-- Searches from both ends with ever more edits. When the difference of the lengths is odd the search from the
front meets the other one, else the search from the back does. -/
def meetingPlace (old new : Array Text) : (left edits : Nat) → (front back : Frontier) → Option Place
  | 0, _, _, _ => none
  | left + 1, edits, front, back =>
      let odd := (old.size + new.size) % 2 = 1
      let forward : Search := ⟨old, new, fun distance => odd && distance < edits⟩
      match forward.advance edits back (diagonals edits) front with
      | (_, some (place, _)) => some place
      | (front, none) =>
          let backward : Search := ⟨old.reverse, new.reverse, fun distance => !odd && distance ≤ edits⟩
          match backward.advance edits front (diagonals edits) back with
          | (_, some (_, (x, y))) => some (old.size - x, new.size - y)
          | (back, none) => meetingPlace old new left (edits + 1) front back

/-- A place on a shortest script, about in its middle. -/
def middle? (old new : List Text) : Option Place :=
  let depth := (old.length + new.length + 1) / 2 + 1
  meetingPlace old.toArray new.toArray depth 0 (.start depth) (.start depth)

/-- A run of lines, unless it is empty. -/
def run (kind : EditKind) (place : Place) (length : Nat) : List Edit :=
  if length = 0 then [] else [⟨kind, place.1, place.2, length⟩]

/-- A script between two lists of lines that begin at a place. The lines at both ends that are equal are set
aside before anything is searched. -/
def scriptFrom : (bound : Nat) → Place → (old new : List Text) → List Edit
  | 0, (x, y), old, new => run .delete (x, y) old.length ++ run .insert (x, y) new.length
  | bound + 1, (x, y), old, new =>
      let lead := commonPrefix old new
      let old := old.drop lead
      let new := new.drop lead
      let tail := commonSuffix old new
      let old := old.take (old.length - tail)
      let new := new.take (new.length - tail)
      let place := (x + lead, y + lead)
      let edits :=
        if old.isEmpty || new.isEmpty then
          run .delete place old.length ++ run .insert place new.length
        else
          match middle? old new with
          | some (u, v) =>
              scriptFrom bound place (old.take u) (new.take v) ++
                scriptFrom bound (place.1 + u, place.2 + v) (old.drop u) (new.drop v)
          | none => run .delete place old.length ++ run .insert place new.length
      run .equal (x, y) lead ++ edits ++
        run .equal (place.1 + old.length, place.2 + new.length) tail

def script (old new : List Text) : List Edit :=
  scriptFrom (old.length + new.length + 1) (0, 0) old new

end GoGraft.Diff
