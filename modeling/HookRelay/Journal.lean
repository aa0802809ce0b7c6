import HookRelay.Text.JsonString
import HookRelay.Text.Moment
import HookRelay.Text.Utf8

/-!
# Journal lines

A line of the log is one JSON object with the time, the level, the part of the program, the event,
the process and a message.

* `Note`: what a line reports.
* `Note.line`: the line, with its line feed.
-/

namespace HookRelay

/-- What a line of the log reports. -/
structure Note where
  level : String
  subsystem : String
  event : String
  message : String
deriving DecidableEq, Repr

namespace Note

/-- A report of something that went well. -/
def info (subsystem event message : String) : Note :=
  ⟨"INFO", subsystem, event, message⟩

/-- A report of something that went wrong without consequence for what is printed. -/
def warning (subsystem event message : String) : Note :=
  ⟨"WARN", subsystem, event, message⟩

/-- A report of something that must not happen. -/
def failure (subsystem event message : String) : Note :=
  ⟨"ERROR", subsystem, event, message⟩

def field (key : String) (value : List Char) : List Char :=
  JsonString.quote key ++ ':' :: value

def object (fields : List (List Char)) : List Char :=
  '\x7b' :: (fields.intersperse [',']).flatten ++ ['\x7d']

def text (moment : Moment) (process : Nat) (note : Note) : List Char :=
  object
    [field "ts" (JsonString.quote moment.text),
      field "level" (JsonString.quote note.level),
      field "subsystem" (JsonString.quote note.subsystem),
      field "event" (JsonString.quote note.event),
      field "pid" (Nat.toDigits 10 process),
      field "msg" (JsonString.quote note.message)]

def line (moment : Moment) (process : Nat) (note : Note) : Bytes :=
  Utf8.encode (note.text moment process ++ ['\n'])

end Note

end HookRelay
