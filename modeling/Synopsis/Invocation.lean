import Synopsis.Fault.Rendering
import Synopsis.Request

/-!
From a help text and a command line to bound values.

The run itself knows nothing of how things are presented: it yields how it finished and what happened
on the way. Presentation decides whether the console is given what is worth logging, and whether a
fault is printed or raised. Matcher and console are not part of the program: they are parameters, and
either of them may raise what it likes.
-/
namespace Synopsis.Invocation

/-- What a matcher raises on its own account: a fault, or anything else. -/
inductive Thrown where
  | fault (f : Fault)
  | misuse (m : Misuse)

/-- A matcher takes the tree and the leaves of the command line. It gives nothing where they do not
fit, else what is left over and what was collected. -/
abbrev Matcher := Pattern → List Leaf → Except Thrown (Option (List Pattern × List Pattern))

/-- A value as a matcher: it has to be callable. A plain function finds nothing that fits; kinds of
value and built-in functions do not take a tree and leaves. -/
def Matcher.ofValue? : Value → Option Matcher
  | .datum .function => some fun _ _ => .ok none
  | .datum (.kind k) => some fun _ _ => .error (.misuse (.kindAsMatcher k))
  | .datum .builtin => some fun _ _ => .error (.misuse .builtinAsMatcher)
  | _ => none

/-- What a run is asked to do. A command line that is not given is that of the process. -/
structure Task where
  doc : String
  argv : Value
  arguments : List String := []
  matcher : Matcher
  help : Bool
  version : Value
  optionsFirst : Bool
  typed : Bool

def Task.line (r : Task) : Value := Request.coalesce r.argv (.list (r.arguments.map .text))

structure Call where
  pattern : Pattern
  leaves : List Leaf

/-- What happens in the course of a run: a stage leaves a value that is worth logging, or the matcher
is called. -/
inductive Event where
  | entry (label : String) (v : Value)
  | call (c : Call)

def Event.logged? : Event → Option (String × Value)
  | .entry label v => some (label, v)
  | .call _ => none

def Event.call? : Event → Option Call
  | .entry .. => none
  | .call c => some c

/-- What happened so far, and the program that the usage section names, once it was read. -/
structure Trace where
  events : List Event
  prog : Option String

/-- How a run finishes: with bound values, with help or version shown, with a failure, or with a fault
that its matcher raises. -/
inductive Finish where
  | bound (values : List (String × Datum))
  | informed (text : String)
  | failed (f : Failure)
  | faulted (f : Fault)

structure Run where
  finish : Finish
  trace : Trace

namespace Trace

def empty : Trace := ⟨[], none⟩

def log (t : Trace) (label : String) (v : Value) : Trace :=
  { t with events := t.events ++ [.entry label v] }

def call (t : Trace) (c : Call) : Trace := { t with events := t.events ++ [.call c] }

def entries (t : Trace) : List (String × Value) := t.events.filterMap Event.logged?

def calls (t : Trace) : List Call := t.events.filterMap Event.call?

end Trace

/-- Whether a flag of one of the names is on among the leaves. -/
def flagged (names : List String) (leaves : List Leaf) : Bool :=
  leaves.any fun l =>
    match l with
    | .option o =>
      names.contains o.name && (match o.slot.value with | .bool b => b | _ => false)
    | _ => false

/-- Help goes before version; either needs its flag. -/
def information? (r : Task) (leaves : List Leaf) : Option String :=
  if r.help && flagged ["-h", "--help"] leaves then some (Text.trimLines r.doc)
  else if !r.version.isUnset && flagged ["--version"] leaves then some r.version.shown
  else none

/-- The name and value of a node; a leaf without a name is passed over. -/
def bindingOf : Pattern → Except Misuse (Option (String × Datum))
  | .branch g _ => .error (.noAttribute (NodeKind.group g).title "name")
  | .leaf l => .ok (l.name?.bind fun name => l.value?.map fun v => (name, v))

/-- The named leaves of the tree, then those collected, each later one replacing an earlier one. -/
def bindings (pattern : Pattern) (collected : List Pattern) :
    Except Misuse (List (String × Datum)) := do
  let own := pattern.select [.kind .argument, .kind .command, .kind .option]
  let all ← (own.map Pattern.leaf ++ collected).mapM bindingOf
  .ok (overlay [] (all.filterMap id))

def coerce : Datum → Except Misuse Datum
  | .text s => Coercion.classify s
  | d => .ok d

def coerceAll (entries : List (String × Datum)) : Except Misuse (List (String × Datum)) :=
  entries.mapM fun (name, v) => (coerce v).map fun w => (name, w)

def bound (r : Task) (pattern : Pattern) (collected : List Pattern) : Finish :=
  match bindings pattern collected with
  | .error m => .failed (.misuse m)
  | .ok entries =>
    if r.typed then
      match coerceAll entries with
      | .error m => .failed (.misuse m)
      | .ok values => .bound values
    else .bound entries

def optionValues (registry : Registry) : Value :=
  .list (registry.map fun o => .leaf (.option o))

def bindLine (r : Task) (prog : String) (pattern : Pattern) (leaves : List Leaf) (t : Trace) :
    Run :=
  let t := t.call ⟨pattern, leaves⟩
  match r.matcher pattern leaves with
  | .error (.fault f) => ⟨.faulted f, t⟩
  | .error (.misuse m) => ⟨.failed (.misuse m), t⟩
  | .ok none => ⟨.failed (.complaint (.unmatched prog)), t⟩
  | .ok (some ([], collected)) =>
    ⟨bound r pattern collected, t.log "collected" (.list (collected.map .pattern))⟩
  | .ok (some (left, _)) => ⟨.failed (.complaint (.leftover prog left)), t⟩

def readLine (r : Task) (prog : String) (parsed : Usage.Parsed) (t : Trace) : Run :=
  match Request.vector r.line with
  | .error e => ⟨.failed e, t⟩
  | .ok tokens =>
    match CommandLine.ofTokens r.optionsFirst tokens parsed.registry with
    | .error e => ⟨.failed e, t⟩
    | .ok line =>
      let t := t.log "argv" (.list (line.leaves.map .leaf))
      match information? r line.leaves with
      | some text => ⟨.informed text, t⟩
      | none => bindLine r prog parsed.pattern line.leaves t

def readUsage (r : Task) (prog formal : String) : Run :=
  let registry := Description.registryOf r.doc
  let t := { Trace.empty with prog := some prog }
    |>.log "usage" (.text formal) |>.log "options" (optionValues registry)
  match Usage.parse formal registry with
  | .error e => ⟨.failed e, t⟩
  | .ok parsed => readLine r prog parsed (t.log "pattern" (.pattern parsed.pattern))

def run (r : Task) : Run :=
  match Usage.sectionOf r.doc with
  | .error e => ⟨.failed e, .empty⟩
  | .ok usage =>
    match Usage.formal usage with
    | .error e => ⟨.failed e, .empty⟩
    | .ok formal => readUsage r ((Usage.program? usage).getD "") formal

/-- How things are presented: faults printed or raised, in a panel or plain, with or without colours,
and what is worth logging logged or not. -/
structure Presentation where
  shell : Value
  fancy : Value
  colorful : Value
  debug : Bool

/-- The console that entries are logged on. What it makes of one is its own affair, and it may raise
something instead. -/
structure Console where
  log : String → Value → Except Misuse Unit

/-- A console that takes down every entry as it is. -/
def Console.recorder : Console := ⟨fun _ _ => .ok ()⟩

def Console.refusal? (console : Console) : Event → Option Misuse
  | .entry label v =>
    match console.log label v with
    | .error m => some m
    | .ok () => none
  | .call _ => none

/-- What happens before the first entry that the console refuses, and what it raises there. -/
def Console.cut? (console : Console) : List Event → Option (List Event × Misuse)
  | [] => none
  | e :: rest =>
    match console.refusal? e with
    | some m => some ([], m)
    | none => (console.cut? rest).map fun (front, m) => (e :: front, m)

/-- What the surrounding program sees in the end: values, the end of the program, a fault, misuse, or
what the console raised when it was given an entry. -/
inductive Outcome where
  | bound (values : List (String × Datum))
  | exit (status : Nat)
  | raised (f : Fault)
  | misused (m : Misuse)
  | refused (m : Misuse)

structure Transcript where
  outcome : Outcome
  calls : List Call
  stdout : List String
  stderr : List Rendering
  log : List (String × Value)

/-- The details that presentation adds to a fault: the program is known once the usage section was
read. -/
def details (p : Presentation) (prog : Option String) : List (String × Value) :=
  [("shell", p.shell), ("fancy", p.fancy), ("colorful", p.colorful)] ++
    prog.toList.map fun s => ("prog", .text s)

/-- What is reported is surfaced; misuse always passes through. -/
def surfaced (host : Host) (p : Presentation) (t : Trace) (reported : Except Misuse Fault) :
    Transcript :=
  match reported.bind fun fault => fault.surface host (details p t.prog) with
  | .error m => ⟨.misused m, t.calls, [], [], []⟩
  | .ok (.raised fault) => ⟨.raised fault, t.calls, [], [], []⟩
  | .ok (.printed rendering) => ⟨.exit 1, t.calls, [], [rendering], []⟩

/-- What a run comes to where nothing is logged. -/
def conclude (host : Host) (p : Presentation) (r : Run) : Transcript :=
  match r.finish with
  | .bound values => ⟨.bound values, r.trace.calls, [], [], []⟩
  | .informed text => ⟨.exit 0, r.trace.calls, [text], [], []⟩
  | .failed f => surfaced host p r.trace f.report
  | .faulted fault => surfaced host p r.trace (.ok fault)

/-- A run as it is presented. What the console raises is no fault, so that nothing catches it: the run
ends there. -/
def present (console : Console) (host : Host) (p : Presentation) (r : Run) : Transcript :=
  if p.debug then
    match console.cut? r.trace.events with
    | some (front, m) =>
      ⟨.refused m, front.filterMap Event.call?, [], [], front.filterMap Event.logged?⟩
    | none => { conclude host p r with log := r.trace.entries }
  else conclude host p r

/-- A run on values of which nothing is known: the help text has to be a text, and then the matcher
has to be one. -/
def runChecked (console : Console) (host : Host) (p : Presentation) (doc : Value)
    (matcher : Option Matcher) (task : String → Matcher → Task) : Transcript :=
  let misused (m : Misuse) : Transcript := ⟨.misused m, [], [], [], []⟩
  match doc.text?, matcher with
  | none, _ => misused (.notText .invocation)
  | some _, none => misused .matcherNotCallable
  | some s, some m => present console host p (run (task s m))

end Synopsis.Invocation
