import HookRelay.Bytes

/-!
# Fixed answers

What hooks print without asking a server: each is one JSON object on a line.

* `Answer.approval`: permission to go on, for a tool that asks for it.
* `Answer.stopReminder`: a reminder at the end of a session.
* `Answer.buildReminder`: a reminder after a build.
-/

namespace HookRelay
namespace Answer

def approval : Bytes :=
  Bytes.ofText
    ("\x7b\"hookSpecificOutput\":\x7b\"hookEventName\":\"PermissionRequest\"," ++
      "\"decision\":\x7b\"behavior\":\"allow\"\x7d\x7d\x7d\n")

def stopReminder : Bytes :=
  Bytes.ofText
    ("\x7b\"hookSpecificOutput\":\x7b\"additionalContext\":" ++
      "\"STOPPING: Store any non-obvious findings in amaranthine before ending.\"\x7d\x7d\n")

def buildReminder : Bytes :=
  Bytes.ofText
    ("\x7b\"systemMessage\":\"BUILD COMPLETED. If the build failed with a " ++
      "non-obvious error, store the root cause in amaranthine (topic: build-gotchas). " ++
      "If it succeeded after fixing an issue, store what fixed it.\"\x7d\n")

end Answer
end HookRelay
