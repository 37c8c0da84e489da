/-!
# Byte strings

File paths, words of a command line and file contents are byte strings: they reach the cuesheet
tool exactly as they were given, whether or not they are text.
-/

namespace Cuesheet

abbrev Bytes := List UInt8

end Cuesheet
