import Linewise.Command
import Linewise.Document.State
import Linewise.Document.Writer
import Linewise.Expr.Eval
import Linewise.Files
import Linewise.Text.Numeric

/-! What one line does. A line turns a store into another one and an output, and on the way makes at
most one request to its surroundings: a question, or reading or writing a file. Everything else is
a function of the store and the line. -/
namespace Linewise

/-- The result of a line: the store after it and the text it shows, if any. -/
structure Outcome where
  store : Store
  output : Option String
deriving DecidableEq

/-- A line on its way: finished, or waiting for the answer to a request. -/
inductive Step where
  | done (outcome : Outcome)
  | ask (name : String) (resume : Option String → Outcome)
  | read (path : String) (resume : Except FileError String → Outcome)
  | write (path contents : String) (resume : Except FileError Unit → Outcome)

/-- Why a command fails. -/
inductive CommandError where
  /-- The words behind the keyword are wrong. -/
  | args (e : ArgsError)
  /-- A condition is a variable that holds no number. -/
  | notNumber (keyword : Keyword) (name : String) (kind : Kind)
  /-- The class does not exist. -/
  | noClass (name : String)
  /-- The state cannot be written. -/
  | notSaved (path : String) (e : FileError)
deriving DecidableEq

/-- The wording of a failure. The reason of a failed save is given by the store and by the file,
which use the same words. -/
def CommandError.message : CommandError → String
  | .args e => e.message
  | .notNumber k name kind =>
    k.name ++ ": '" ++ name ++ "' holds a " ++ kind.name ++ ", not a number"
  | .noClass name => "Class " ++ name ++ " not defined."
  | .notSaved path e => "cannot save state to " ++ path ++ ": " ++ e.message ++ ": " ++ e.message

namespace Store

/-- A line that changes nothing and shows nothing. -/
def silent (s : Store) : Outcome :=
  ⟨s, none⟩

/-- A line that changes nothing and shows a text. -/
def shows (s : Store) (text : String) : Outcome :=
  ⟨s, some text⟩

/-- A line that fails: nothing changes. -/
def fails (s : Store) (e : CommandError) : Outcome :=
  s.shows ("Error: " ++ e.message)

/-- Binds a variable. -/
def bind (s : Store) (name : String) (v : Value) : Store :=
  { s with «variables» := s.variables.insert name v }

/-- `format_array`: the array with its items in brackets. -/
def arrayText (items : Array Int64) : String :=
  "[" ++ ", ".intercalate (items.toList.map Integer.text) ++ "]"

/-- `format_dict`: the dictionary with its entries in braces, in the order of the keys. -/
def dictText (t : Table Int64) : String :=
  "\x7b" ++ ", ".intercalate
    (t.entries.map fun e => "\"" ++ e.1 ++ "\": " ++ Integer.text e.2) ++ "\x7d"

/-- `Print.execute`: what a name stands for, a numeral for itself, else an array, a dictionary or a
variable, in this order. -/
def describe (s : Store) (name : String) : String :=
  if name.toList.all Text.isNumeric then name
  else
    match s.arrays.get? name with
    | some items => arrayText items
    | none =>
      match s.dictionaries.get? name with
      | some t => dictText t
      | none =>
        match s.variables.get? name with
        | some v => v.text
        | none => "Undefined variable"

/-- The mark that a function definition leaves. -/
def functionMark : String := "Function defined"

/-- The mark that a method definition leaves. -/
def methodMark : String := "Method defined"

/-- `Let.execute`: a variable receives the value of an expression, or a text that tells why there is
none. -/
def assign (s : Store) (name source : String) : Outcome :=
  let v := match evaluate s.scope source with
    | .ok v => v
    | .error e => .str ("Error evaluating expression: " ++ e.message)
  (s.bind name v).silent

/-- `Input.execute`, after the prompt: a variable receives the reply to a question. -/
def receive (s : Store) (name : String) (reply : Option String) : Outcome :=
  match reply with
  | none => s.shows "Input canceled."
  | some text => (s.bind name (Value.ofInput text)).shows (name ++ " = " ++ text)

/-- `If.execute`: shows a text if a variable holds a positive number. -/
def onlyIf (s : Store) (name text : String) : Outcome :=
  match s.variables.get? name with
  | none => s.silent
  | some v =>
    match v.number? with
    | none => s.fails (.notNumber .onlyIf name v.kind)
    | some n => if n.isPositive then s.shows text else s.silent

/-- What is left of a value when one is subtracted as long as it is positive; texts have no such
rest. -/
def countedDown? : Value → Option Value
  | .int n => some (.int (if 0 < n then 0 else n))
  | .float x => some (.float (if 0 < x then x - Double.ceil x else x))
  | .bool true => some (.int 0)
  | .bool false => some (.bool false)
  | .str _ => none

/-- `While.execute`: counts a variable down. -/
def countDown (s : Store) (name : String) : Outcome :=
  match s.variables.get? name with
  | none => s.silent
  | some v =>
    match countedDown? v with
    | none => s.fails (.notNumber .countDown name v.kind)
    | some rest => (s.bind name rest).silent

/-- `Push.execute`: appends to an array that exists. -/
def push (s : Store) (name : String) (value : Int64) : Outcome :=
  match s.arrays.get? name with
  | none => s.silent
  | some items => silent { s with arrays := s.arrays.insert name (items.push value) }

/-- `Pop.execute`: takes the last item off an array. -/
def pop (s : Store) (name : String) : Outcome :=
  match s.arrays.get? name with
  | none => s.shows "Array is empty or does not exist."
  | some items =>
    match items.back? with
    | none => s.shows "Array is empty or does not exist."
    | some last => shows { s with arrays := s.arrays.insert name items.pop } (Integer.text last)

/-- `Set.execute`: puts an integer into a dictionary that exists. -/
def set (s : Store) (name key : String) (value : Int64) : Outcome :=
  match s.dictionaries.get? name with
  | none => s.silent
  | some t => silent { s with dictionaries := s.dictionaries.insert name (t.insert key value) }

/-- `Get.execute`: shows an integer of a dictionary. -/
def get (s : Store) (name key : String) : Outcome :=
  match (s.dictionaries.get? name).bind (·.get? key) with
  | some value => s.shows (Integer.text value)
  | none => s.shows "Key not found"

/-- `Method.execute`: adds a method to a class that exists. -/
def addMethod (s : Store) (name method : String) : Outcome :=
  match s.classes.get? name with
  | none => s.fails (.noClass name)
  | some t => silent { s with classes := s.classes.insert name (t.insert method methodMark) }

/-- `Try.execute`: evaluates an expression and shows only why it has no value. -/
def attempt (s : Store) (source : String) : Outcome :=
  match evaluate s.scope source with
  | .ok _ => s.silent
  | .error .divisionByZero => s.shows "Caught division by zero"
  | .error e => s.shows ("Error: " ++ e.message)

/-- `Save.execute`, after the file system: ends a save. -/
def saved (s : Store) (path : String) (answer : Except FileError Unit) : Outcome :=
  match answer with
  | .ok _ => s.shows ("State saved to " ++ path)
  | .error e => s.fails (.notSaved path e)

/-- `Load.execute`, after the file system: ends a load. The namespaces are replaced if the whole
document can be read, and only then. -/
def loaded (s : Store) (path : String) (answer : Except FileError String) : Outcome :=
  match answer with
  | .error e => s.shows ("Error loading state: " ++ e.message)
  | .ok text =>
    match Document.read text with
    | .error f => s.shows ("Error loading state: " ++ f.message text)
    | .ok other => (s.withNamespaces other).shows ("State loaded from " ++ path)

/-- `Delete.execute`: deletes a name and tells where it stood. -/
def remove (s : Store) (name : String) : Outcome :=
  let report := match s.place? name with
    | some .variable => "Variable " ++ name ++ " deleted."
    | some .array => "Array " ++ name ++ " deleted."
    | some .dictionary => "Dictionary " ++ name ++ " deleted."
    | none => name ++ " not found."
  (s.delete name).shows report

end Store

/-- `BuiltinCommand.execute`: what a command does to a store. -/
def Command.step (s : Store) : Command → Step
  | .assign name source => .done (s.assign name source)
  | .print name => .done (s.shows (s.describe name))
  | .input name => .ask name (s.receive name)
  | .onlyIf name text => .done (s.onlyIf name text)
  | .countDown name => .done (s.countDown name)
  | .define name => .done (s.bind name (.str Store.functionMark)).silent
  | .array name => .done (Store.silent { s with arrays := s.arrays.insert name #[] })
  | .push name value => .done (s.push name value)
  | .pop name => .done (s.pop name)
  | .dict name => .done (Store.silent { s with dictionaries := s.dictionaries.insert name .empty })
  | .set name key value => .done (s.set name key value)
  | .get name key => .done (s.get name key)
  | .newClass name => .done (Store.silent { s with classes := s.classes.insert name .empty })
  | .method name added => .done (s.addMethod name added)
  | .attempt source => .done (s.attempt source)
  | .help topic => .done (s.shows ("Help for command: " ++ topic))
  | .exit => .done (Store.shows { s with leaving := true } "Exiting the program.")
  | .save path => .write path (Document.write s) (s.saved path)
  | .load path => .read path (s.loaded path)
  | .delete name => .done (s.remove name)
  | .clear => .done (s.clear.shows "All variables, arrays, dictionaries, and classes cleared.")

/-- `Interpreter.execute` up to its request: what a line does to a store, with the keywords of a
vocabulary. A blank line does nothing. -/
def Store.step (vocabulary : List Keyword) (s : Store) (line : String) : Step :=
  match Text.wordsOf line with
  | [] => .done s.silent
  | first :: words =>
    match vocabulary.find? fun k => k.name == first with
    | none => .done (s.shows ("Unknown command: " ++ first))
    | some k =>
      match Command.ofWords k words with
      | .error e => .done (s.fails (.args e))
      | .ok command => command.step s

end Linewise
