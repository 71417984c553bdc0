/-
**Comparators of text.**

Texts stand in the order of their code points, which is the order of their UTF-8 bytes. The
comparators below weigh the length in bytes, or overlook the case of the letters `A` to `Z`.
-/

import OrderedCollections.Comparator

namespace OrderedCollections.Comparator

/-- Texts are compared by their length in UTF-8 bytes. -/
def byteLength : Comparator String :=
  pullback String.utf8ByteSize ascend

/-- Texts are compared by their length in bytes, those of one length by their bytes. -/
def shorterFirst : Comparator String :=
  andThen byteLength ascend

/-- Texts are compared without regard to the case of the letters `A` to `Z`; no other letter
changes. -/
def ignoringCase : Comparator String :=
  pullback (String.map Char.toLower) ascend

end OrderedCollections.Comparator
