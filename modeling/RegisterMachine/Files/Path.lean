import RegisterMachine.Bytes

/-!
# Paths

Paths are byte strings whose parts are divided by slashes. The operations here look at the text
only: `clean` drops empty parts and dots and lets `..` take back the part before it.
-/

namespace RegisterMachine.Path

/-- Whether a path starts at the root. -/
def isAbsolute (p : Bytes) : Bool := p.head? == some 47

/-- The part that stands for the directory itself. -/
def here : Bytes := [46]

/-- The part that stands for the directory above. -/
def above : Bytes := [46, 46]

/-- Adds a part to the parts so far, the last one first. -/
def cleanStep (rooted : Bool) (done : List Bytes) (part : Bytes) : List Bytes :=
  if part = [] ∨ part = here then done
  else if part = above then
    match done with
    | last :: rest => if last = above then above :: done else rest
    | [] => if rooted then [] else [above]
  else part :: done

/-- The shortest path with the same meaning, as far as the text tells. -/
def clean (p : Bytes) : Bytes :=
  let rooted := isAbsolute p
  let parts := (Bytes.splitOn 47 p).foldl (cleanStep rooted) []
  let body := Bytes.join [47] parts.reverse
  if rooted then 47 :: body else if body.isEmpty then here else body

/-- The paths one below the other, cleaned; empty ones do not count. -/
def join (parts : List Bytes) : Bytes :=
  match parts.filter (!·.isEmpty) with
  | [] => []
  | parts => clean (Bytes.join [47] parts)

/-- The directory that holds a path. -/
def parent (p : Bytes) : Bytes := clean (p.reverse.dropWhile (· != 47)).reverse

/-- The last part of a path. -/
def base (p : Bytes) : Bytes :=
  if p.isEmpty then here
  else
    let p := (p.reverse.dropWhile (· == 47)).reverse
    if p.isEmpty then [47] else (p.reverse.takeWhile (· != 47)).reverse

/-- The last part from its last dot on, or nothing when it has no dot. -/
def extension (p : Bytes) : Bytes :=
  let tail := p.reverse.takeWhile (· != 47)
  match tail.dropWhile (· != 46) with
  | [] => []
  | _ => 46 :: (tail.takeWhile (· != 46)).reverse

/-- A path seen from the root, given the working directory. -/
def absolute (workingDir p : Bytes) : Bytes :=
  if isAbsolute p then clean p else join [workingDir, p]

end RegisterMachine.Path
