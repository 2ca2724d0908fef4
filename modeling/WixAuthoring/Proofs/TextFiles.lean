import WixAuthoring.Proofs.Writing

namespace WixAuthoring

/-!
# Filing a text

A text that is saved or added can be read at its path, and no file has changed but the one that the
path leads to. A text that is refused has changed no file at all. In either case directories that
were missing above the path may have been made.
-/

namespace Store

variable {s t u : Store} {here place : Location} {p : Path} {change : List UInt8 → List UInt8}

end Store

namespace Disk

open Store

variable {s t u : Store} {here place : Location} {p : Path} {change : List UInt8 → List UInt8}

end Disk

namespace Machine

open Store

end Machine

end WixAuthoring
