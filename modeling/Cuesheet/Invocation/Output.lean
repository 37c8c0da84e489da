import Cuesheet.Line
import Cuesheet.Run.Event
import Cuesheet.Text.Blank
import Cuesheet.Text.Utf8

/-!
# The output of the tool

Each output stream of the tool is cut into lines. A line is forwarded if it is text and not blank.

`lines` says which lines of a whole stream are forwarded. The streams arrive in pieces, in any order
and cut anywhere: `Pending` holds the beginnings of the lines that are not whole yet, `Pending.feed`
takes in a piece and gives the lines that it completes, `Pending.close` takes in the end of one stream,
and `Pending.rest` gives the lines that the ends of both streams complete.
-/

namespace Cuesheet.Output

/-- The text of a line, if the line is forwarded. -/
def shown? (line : Bytes) : Option String :=
  (Utf8.decode? line).filter (!Text.allBlank ·)

/-- The forwarded lines among those that have an end. -/
def endedLines (bs : Bytes) : List String := (Line.ended bs).filterMap shown?

def lines (bs : Bytes) : List String := (Line.all bs).filterMap shown?

/-- The beginnings of the lines that are not whole yet. -/
structure Pending where
  stdout : Bytes := []
  stderr : Bytes := []
deriving DecidableEq, Repr

namespace Pending

def get (p : Pending) : LogStream → Bytes
  | .stdout => p.stdout
  | .stderr => p.stderr

def set (p : Pending) (stream : LogStream) (bs : Bytes) : Pending :=
  match stream with
  | .stdout => { p with stdout := bs }
  | .stderr => { p with stderr := bs }

/-- Takes in a piece of a stream, and gives the forwarded lines that it completes. -/
def feed (p : Pending) (stream : LogStream) (piece : Bytes) : Pending × List String :=
  let bs := p.get stream ++ piece
  (p.set stream (Line.tail bs), endedLines bs)

/-- Takes in the end of a stream, and gives the forwarded line that it completes, if there is one. -/
def close (p : Pending) (stream : LogStream) : Pending × List String :=
  (p.set stream [], (shown? (p.get stream)).toList)

/-- The forwarded lines that the ends of the streams complete. -/
def rest (p : Pending) : List (LogStream × String) :=
  LogStream.all.flatMap fun stream => (shown? (p.get stream)).toList.map fun line => (stream, line)

end Pending

end Cuesheet.Output
