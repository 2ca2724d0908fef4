import WixAuthoring.Proofs.Checking
import WixAuthoring.Proofs.Strings

namespace WixAuthoring

/-!
# The names in a document

A document brings names of its own and the names of the attributes that its package adds. When none of
these is in a namespace, the document can be written.
-/

namespace Xml.Element

end Xml.Element

namespace Source

open Xml Element

variable {p : Package} {files : FileSource} {root : Element}

section AddedNames

variable (hnames : ∀ n ∈ p.attributeNames, isUnbraced n = true)
include hnames

end AddedNames

end Source

end WixAuthoring
