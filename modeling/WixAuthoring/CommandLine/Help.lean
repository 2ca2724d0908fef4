import WixAuthoring.CommandLine.Refusal

namespace WixAuthoring.CommandLine

/-!
# Help

What is shown when help is asked for, and the short form of it that comes before a complaint. Lines are
laid out for eighty columns.
-/

def programName : String := "octobuild-installer"

def Topic.title : Topic → String
  | .program => programName
  | .command c => programName ++ " " ++ c.name

def programUsage : String :=
  "usage: octobuild-installer [-h] [--manifest MANIFEST]\n" ++
  "                           [--source-root SOURCE_ROOT] [--out-dir OUT_DIR]\n" ++
  "                           [--wix-bin WIX_BIN] [--wxs-only]\n" ++
  "                           \x7bbuild,version,broadcast\x7d ...\n"

def buildUsage : String :=
  "usage: octobuild-installer build [-h] [--manifest MANIFEST]\n" ++
  "                                 [--source-root SOURCE_ROOT]\n" ++
  "                                 [--out-dir OUT_DIR] [--wix-bin WIX_BIN]\n" ++
  "                                 [--wxs-only]\n"

def versionUsage : String :=
  "usage: octobuild-installer version [-h] [--manifest MANIFEST]\n"

def broadcastUsage : String :=
  "usage: octobuild-installer broadcast [-h]\n"

def Topic.usage : Topic → String
  | .program => programUsage
  | .command .build => buildUsage
  | .command .version => versionUsage
  | .command .broadcast => broadcastUsage

def commandSummary : String :=
  "\n" ++
  "Build the Octobuild Windows installer (MSI + WXS).\n" ++
  "\n" ++
  "positional arguments:\n" ++
  "  \x7bbuild,version,broadcast\x7d\n" ++
  "    build               Build the MSI and WXS artifacts (default).\n" ++
  "    version             Print the version read from the manifest.\n" ++
  "    broadcast           Notify running programs that the environment changed.\n"

def buildOptions : String :=
  "\n" ++
  "options:\n" ++
  "  -h, --help            show this help message and exit\n" ++
  "  --manifest MANIFEST   Manifest holding the product version line.\n" ++
  "  --source-root SOURCE_ROOT\n" ++
  "                        Directory that packaged file paths are relative to.\n" ++
  "  --out-dir OUT_DIR     Directory receiving the .msi and .wxs files.\n" ++
  "  --wix-bin WIX_BIN     WiX Toolset bin directory (defaults to %WIX%\\bin, then\n" ++
  "                        PATH).\n" ++
  "  --wxs-only            Only write the WiX source; skip candle/light.\n"

def versionOptions : String :=
  "\n" ++
  "options:\n" ++
  "  -h, --help           show this help message and exit\n" ++
  "  --manifest MANIFEST  Manifest holding the product version line.\n"

def broadcastOptions : String :=
  "\n" ++
  "options:\n" ++
  "  -h, --help  show this help message and exit\n"

def Topic.help : Topic → String
  | .program => programUsage ++ commandSummary ++ buildOptions
  | .command .build => buildUsage ++ buildOptions
  | .command .version => versionUsage ++ versionOptions
  | .command .broadcast => broadcastUsage ++ broadcastOptions

/-- What is printed on a refusal. -/
def Refusal.output : Refusal → String
  | .help topic => topic.help
  | .misuse _ _ => ""

/-- What is reported as an error on a refusal. -/
def Refusal.report : Refusal → String
  | .help _ => ""
  | .misuse topic message => topic.usage ++ topic.title ++ ": error: " ++ message ++ "\n"

def Refusal.exitCode : Refusal → Nat
  | .help _ => 0
  | .misuse _ _ => 2

end WixAuthoring.CommandLine
