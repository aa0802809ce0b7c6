import HookRelay.Occurrence

/-!
# Build commands

A report of a finished command is about a build if it names one of a few build tools in the
spelling in which they are invoked.  The tool whose own name ends in `build` needs the word once
more besides: as the action it is asked for.

* `BuildCommand.isBuild`: the report is about a build.
-/

namespace HookRelay
namespace BuildCommand

/-- The tool whose name ends in the action. -/
def xcodebuild : Bytes :=
  Bytes.ofText "xcodebuild"

def build : Bytes :=
  Bytes.ofText "build"

/-- The invocations that name the action themselves. -/
def invocations : List Bytes :=
  [Bytes.ofText "cargo build", Bytes.ofText "swift build", Bytes.ofText "swiftc "]

/-- The tool is named, and the action more often than the tool. -/
def isXcodeBuild (report : Bytes) : Bool :=
  0 < Bytes.countWord xcodebuild report &&
    Bytes.countWord xcodebuild report < Bytes.countWord build report

def isBuild (report : Bytes) : Bool :=
  isXcodeBuild report || invocations.any (fun words => words.occurs report)

end BuildCommand
end HookRelay
