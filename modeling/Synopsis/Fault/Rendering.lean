import Synopsis.Fault
import Synopsis.Text.Casing

/-! Faults as they are shown: a header with program, code and title, the message, and a hint. -/
namespace Synopsis

/-- What the surrounding program may set: its name, styles, labels of codes, and descriptions. -/
structure Host where
  prog : Option Value
  styles : List (String × String)
  labels : List (Fault.Code × Value)
  descriptions : List (Fault.Code × String)

def Host.bare : Host := ⟨none, [], [], []⟩

/-- A shown fault, plain or in a panel. -/
structure Rendering where
  panel : Bool
  header : StyledText
  parts : List StyledText
  deriving DecidableEq, Repr

namespace Fault

/-- The label of a code: the host's, else its number. -/
def Code.labelFor (host : Host) (c : Code) : String :=
  match host.labels.lookup c with
  | some v => v.shown
  | none => Nat.repr c.number

/-- The description of a code that the host gives, if it gives one. -/
def Code.description? (host : Host) (c : Code) : Option String := host.descriptions.lookup c

/-- The styles of the parts of a shown fault. -/
def defaultStyles : List (String × String) :=
  [("prog-name", "bold #E6E6F0"), ("code", "bold #00E5FF"), ("error-title", "bold #FF4DA6"),
    ("error-message", "#C8C8D0"), ("hint-arrow", "#9CE19C dim"), ("hint", "italic #9CE19C")]

/-- The style of a part: the host's before the default. -/
def styleFor (host : Host) (part : String) : String :=
  ((host.styles.lookup part).or (defaultStyles.lookup part)).getD ""

/-- A value as a styled text. What is false is shown as nothing, a text with a style of its own keeps
it, and without colours there are no styles. -/
def fragment (host : Host) (colorful : Bool) (part : String) (v : Value) : StyledText :=
  if !v.truthy then .empty
  else if !colorful then .of v.shown ""
  else match v with
    | .datum (.styled t) => t
    | _ => .of v.shown (styleFor host part)

def setting (f : Fault) (key : String) (default : Bool) : Bool :=
  (f.detail? key).elim default Value.truthy

def codeValue (host : Host) (f : Fault) : Value :=
  match f.code with
  | .datum (.code c) => .text (c.labelFor host)
  | v => v

/-- The title as it is shown: it has to be a text. -/
def titleValue (f : Fault) : Except Misuse Value :=
  match f.detail? "title" with
  | none => .ok (.text (Text.titled "parse error"))
  | some (.datum (.text s)) => .ok (.text (Text.titled s))
  | some (.datum (.kind .str)) => .error (.unbound .str "title")
  | some v => .error (v.lacks "title")

/-- The program name: the host's, else the fault's. -/
def progValue (host : Host) (f : Fault) : Value :=
  host.prog.getD ((f.detail? "prog").getD (.text "usagedoc"))

def render (host : Host) (f : Fault) : Except Misuse Rendering := do
  let colorful := f.setting "colorful" true
  let piece := fragment host colorful
  let title ← f.titleValue
  let header := StyledText.assemble
    [.of "[ " "", piece "prog-name" (f.progValue host), .of " — " "",
      piece "code" (f.codeValue host), .of " | " "", piece "error-title" title, .of " ]" ""]
  let message := piece "error-message" (.text (f.message.getD ""))
  let hint := (f.detail? "hint").getD .null
  let hintLine := StyledText.assemble
    [piece "hint-arrow" (.text " → "), piece "hint" hint]
  .ok ⟨f.setting "fancy" false, header, if hint.truthy then [message, hintLine] else [message]⟩

end Fault

/-- A fault that was surfaced was either printed, which ends the program with status one, or
raised. -/
inductive Surfaced where
  | printed (r : Rendering)
  | raised (f : Fault)
  deriving Repr

/-- Surfaces a fault with further details: it is printed where `shell` is set among them. -/
def Fault.surface (host : Host) (f : Fault) (changes : List (String × Value)) :
    Except Misuse Surfaced := do
  let f ← f.amend changes
  if f.setting "shell" false then (f.render host).map .printed else .ok (.raised f)

end Synopsis
