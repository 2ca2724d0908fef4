namespace WixAuthoring.CommandLine

/-!
# Commands and options

The program has three commands and a few options. An option has one long name; help has a short one as
well. What is known before the command is known to the build command too.
-/

inductive Command where
  | build
  | version
  | broadcast
  deriving DecidableEq, Repr

def Command.name : Command → String
  | .build => "build"
  | .version => "version"
  | .broadcast => "broadcast"

def commands : List Command := [.build, .version, .broadcast]

def Command.ofName? (name : String) : Option Command := commands.find? (·.name = name)

inductive Flag where
  | help
  | manifest
  | sourceRoot
  | outDir
  | wixBin
  | wxsOnly
  deriving DecidableEq, Repr

/-- How an option is called when it is used wrongly. -/
def Flag.title : Flag → String
  | .help => "-h/--help"
  | .manifest => "--manifest"
  | .sourceRoot => "--source-root"
  | .outDir => "--out-dir"
  | .wixBin => "--wix-bin"
  | .wxsOnly => "--wxs-only"

/-- Where an option stands: before a command, or behind one. -/
inductive Topic where
  | program
  | command (c : Command)
  deriving DecidableEq, Repr

def helpSpellings : List (String × Flag) := [("-h", .help), ("--help", .help)]

def manifestSpelling : List (String × Flag) := [("--manifest", .manifest)]

def buildSpellings : List (String × Flag) :=
  [("--source-root", .sourceRoot), ("--out-dir", .outDir), ("--wix-bin", .wixBin),
   ("--wxs-only", .wxsOnly)]

/-- The options that are known in a place. -/
def Topic.spellings : Topic → List (String × Flag)
  | .program => helpSpellings ++ manifestSpelling ++ buildSpellings
  | .command .build => helpSpellings ++ manifestSpelling ++ buildSpellings
  | .command .version => helpSpellings ++ manifestSpelling
  | .command .broadcast => helpSpellings

end WixAuthoring.CommandLine
