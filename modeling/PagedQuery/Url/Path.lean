import PagedQuery.Url.Basic

/-!
# Paths of URLs

A path is a row of segments, each after a slash. A segment of one point, plain
or as a percent sign and its byte, stays where it is, and a segment of two points
goes back over the segment in front of it, unless that names a drive. If such a
segment comes last, the path ends in a slash.
-/
namespace PagedQuery.Url

/-- The segment stays where it is. -/
def isHere (segment : Text) : Bool := [".".toList, "%2e".toList].contains (Text.lower segment)

/-- The segment goes back. -/
def isBack (segment : Text) : Bool :=
  ["..".toList, "%2e.".toList, ".%2e".toList, "%2e%2e".toList].contains (Text.lower segment)

/-- The segment names a drive: a letter with a colon or a bar, and no more before a backslash. -/
def isDrive : Text → Bool
  | c :: d :: t => c.isAlpha && (d = ':' || d = '|') && (t.isEmpty || t.head? = some '\\')
  | _ => false

/-- The segments of a path, the last one first, after one more segment with a slash behind it. -/
def enter (segments : List Text) (segment : Text) : List Text :=
  if isHere segment then segments
  else if isBack segment then
    match segments with
    | [] => []
    | last :: front => if isDrive last then segments else front
  else segment :: segments

/-- The segments of a path after the given ones, of which the last is first. -/
def resolve (front : List Text) : List Text → List Text
  | [] => front.reverse
  | [last] =>
    if isHere last || isBack last then (enter front last).reverse ++ [[]]
    else front.reverse ++ [last]
  | segment :: next :: more => resolve (enter front segment) (next :: more)

def join (segments : List Text) : Text := segments.flatMap ('/' :: ·)

/-- The path that is written as `written`. -/
def normalPath (written : Text) : Text :=
  if written = [] then []
  else
    let relative := if written.head? = some '/' then written.tail else written
    join (resolve [] (Text.parts '/' relative))

end PagedQuery.Url
