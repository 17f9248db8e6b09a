import BootImage.Report.Event
import BootImage.Text.Utf8

/-!
# The transcript of a run

What comes out of a run on its two streams, in the order of time: what it prints, the lines of its
report that are shown, and what the programs it started write to the same streams. A program that
was left running writes at its own time, which may come while others run or after the end. Bytes
count as they come, and only a stream as a whole is read as text, so characters may be put together
by several programs.
-/

namespace BootImage

abbrev Writing := Stream × List UInt8

namespace Event

def writing? (v : Verbosity) : Event → Option Writing
  | print text => some (.output, Text.encode text)
  | line l => (v.write? l.kind l.text).map fun text => (.error, Text.encode text)
  | passed stream bytes => some (stream, bytes)
  | call _ | due .. | changing .. | elapsed _ => none

/-- Adds a writing to those to come, which are in the order of time; after those of the same
time. -/
def insertDue (time : Nat) (w : Writing) : List (Nat × Writing) → List (Nat × Writing)
  | [] => [(time, w)]
  | d :: ds => if time < d.1 then (time, w) :: d :: ds else d :: insertDue time w ds

def writings (v : Verbosity) : Nat → List (Nat × Writing) → List Event → List Writing
  | _, coming, [] => coming.map Prod.snd
  | now, coming, e :: es =>
    match e with
    | due delay stream bytes => writings v now (insertDue (now + delay) (stream, bytes) coming) es
    | elapsed duration =>
      (coming.takeWhile (·.1 ≤ now + duration)).map Prod.snd ++
        writings v (now + duration) (coming.dropWhile (·.1 ≤ now + duration)) es
    | e => (e.writing? v).toList ++ writings v now coming es

end Event

def transcript (v : Verbosity) (s : Stream) (trace : List Event) : String :=
  Text.decode <| ((Event.writings v 0 [] trace).filter (·.1 == s)).flatMap Prod.snd

end BootImage
