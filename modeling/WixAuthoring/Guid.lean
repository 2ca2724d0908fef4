import WixAuthoring.Sha1
import WixAuthoring.Text.Hexadecimal
import WixAuthoring.Text.Utf8

namespace WixAuthoring

/-!
# GUIDs

Sixteen bytes that name a package, a product or a component. A name within the namespace of another
GUID always gets the same GUID, so a package that is built again keeps its identity.
-/

structure Guid where
  octets : List UInt8
  length_octets : octets.length = 16
  deriving DecidableEq

namespace Guid

def octets? : List Char → Option (List UInt8)
  | [] => some []
  | [_] => none
  | high :: low :: rest =>
    match Text.hexValue? high, Text.hexValue? low, octets? rest with
    | some h, some l, some bytes => some (UInt8.ofNat (16 * h + l) :: bytes)
    | _, _, _ => none

/-- Reads 32 hexadecimal digits of either case, with hyphens anywhere between them. -/
def parse? (s : String) : Option Guid :=
  match octets? (s.toList.filter (· ≠ '-')) with
  | some bytes => if h : bytes.length = 16 then some ⟨bytes, h⟩ else none
  | none => none

/-- Marks an octet string as a name-based GUID of the fifth version. -/
def mark (octets : List UInt8) : List UInt8 :=
  (octets.modify 6 fun b ↦ (b &&& 0x0F) ||| 0x50).modify 8 fun b ↦ (b &&& 0x3F) ||| 0x80

/-- The GUID of a name within a namespace. -/
def named (space : Guid) (name : String) : Guid where
  octets := mark ((Sha1.digest (space.octets ++ Utf8.encode name)).take 16)
  length_octets := by simp [mark]

def hexadecimal (octets : List UInt8) : List Char :=
  octets.flatMap fun b ↦ (Text.hexadecimal 2 b.toNat).map Char.toUpper

/-- The registry form: upper case, in groups, between braces. -/
def braced (g : Guid) : String :=
  let group (start count : Nat) := hexadecimal ((g.octets.drop start).take count)
  String.ofList ('\x7b' :: group 0 4 ++ '-' :: group 4 2 ++ '-' :: group 6 2 ++ '-' :: group 8 2 ++
    '-' :: group 10 6 ++ ['\x7d'])

end Guid

end WixAuthoring
