import Linewise.Integer

/-! Commands: the keywords of the language and what each makes of the words behind it. Words behind
the last one that a command takes are ignored. -/
namespace Linewise

/-- The keywords. -/
inductive Keyword where
  | assign
  | print
  | input
  | onlyIf
  | countDown
  | define
  | array
  | push
  | pop
  | dict
  | set
  | get
  | newClass
  | method
  | attempt
  | help
  | exit
  | save
  | load
  | delete
  | clear
deriving DecidableEq, Repr

namespace Keyword

/-- The keyword as it is written. -/
def name : Keyword → String
  | .assign => "let"
  | .print => "print"
  | .input => "input"
  | .onlyIf => "if"
  | .countDown => "while"
  | .define => "def"
  | .array => "array"
  | .push => "push"
  | .pop => "pop"
  | .dict => "dict"
  | .set => "set"
  | .get => "get"
  | .newClass => "class"
  | .method => "method"
  | .attempt => "try"
  | .help => "help"
  | .exit => "exit"
  | .save => "save"
  | .load => "load"
  | .delete => "delete"
  | .clear => "clear"

/-- `default_commands`: all keywords. -/
def all : List Keyword :=
  [ .assign, .print, .input, .onlyIf, .countDown, .define, .array, .push, .pop, .dict, .set, .get,
    .newClass, .method, .attempt, .help, .exit, .save, .load, .delete, .clear ]

theorem mem_all (k : Keyword) : k ∈ all := by
  cases k <;> decide

end Keyword

/-- A command with its arguments. -/
inductive Command where
  /-- Binds a name to the value of an expression. -/
  | assign (name source : String)
  /-- Shows what a name stands for. -/
  | print (name : String)
  /-- Asks for the value of a name. -/
  | input (name : String)
  /-- Shows a text if a variable is positive. -/
  | onlyIf (name text : String)
  /-- Counts a variable down until it is no longer positive. -/
  | countDown (name : String)
  /-- Marks a name as a function. -/
  | define (name : String)
  /-- Makes an empty array. -/
  | array (name : String)
  /-- Appends to an array. -/
  | push (name : String) (value : Int64)
  /-- Takes the last item off an array. -/
  | pop (name : String)
  /-- Makes an empty dictionary. -/
  | dict (name : String)
  /-- Puts an integer into a dictionary. -/
  | set (name key : String) (value : Int64)
  /-- Shows an integer of a dictionary. -/
  | get (name key : String)
  /-- Makes a class without methods. -/
  | newClass (name : String)
  /-- Adds a method to a class. -/
  | method (name method : String)
  /-- Evaluates an expression and reports only failures. -/
  | attempt (source : String)
  /-- Shows help on a topic. -/
  | help (topic : String)
  /-- Asks to leave. -/
  | exit
  /-- Writes the namespaces to a file. -/
  | save (path : String)
  /-- Replaces the namespaces by those of a file. -/
  | load (path : String)
  /-- Removes a name. -/
  | delete (name : String)
  /-- Empties the namespaces. -/
  | clear
deriving DecidableEq

/-- `ArgsError`: what is wrong with the words behind a keyword. -/
inductive ArgsError where
  /-- An argument is missing. -/
  | missing (keyword : Keyword) (argument : String)
  /-- A word is no integer in range. -/
  | badInteger (keyword : Keyword) (text : String)
  /-- An assignment without name, equals sign or expression. -/
  | badAssignment
deriving DecidableEq

/-- The wording of an argument error. -/
def ArgsError.message : ArgsError → String
  | .missing k argument => k.name ++ ": missing argument <" ++ argument ++ ">"
  | .badInteger k text => k.name ++ ": invalid integer '" ++ text ++ "'"
  | .badAssignment => "Invalid syntax for '" ++ Keyword.assign.name ++ "' command."

namespace Command

/-- The words with one space between two of them. -/
def joinWords (words : List String) : String :=
  " ".intercalate words

/-- The text without one double quote at its front and one at its end, each if it is there. A single
quote character is taken from the front. -/
def stripQuotes (text : String) : String :=
  let body := match text.toList with
    | '"' :: rest => rest
    | all => all
  match body.reverse with
  | '"' :: rest => String.ofList rest.reverse
  | _ => String.ofList body

/-- `single_name`: a command on one name. -/
def named (k : Keyword) (make : String → Command) : List String → Except ArgsError Command
  | name :: _ => .ok (make name)
  | [] => .error (.missing k "name")

/-- `ArgReader.integer`: an integer argument. -/
def integer (k : Keyword) (word : String) (make : Int64 → Command) : Except ArgsError Command :=
  match Integer.ofText? word.toList with
  | some n => .ok (make n)
  | none => .error (.badInteger k word)

/-- `from_args`: the command that a keyword makes of the words behind it. -/
def ofWords (k : Keyword) (words : List String) : Except ArgsError Command :=
  match k with
  | .assign =>
    match words with
    | name :: sign :: first :: more =>
      if sign = "=" then .ok (.assign name (joinWords (first :: more))) else .error .badAssignment
    | _ => .error .badAssignment
  | .print => named k .print words
  | .input => named k .input words
  | .onlyIf =>
    match words with
    | [] => .error (.missing k "cond")
    | name :: rest => .ok (.onlyIf name (stripQuotes (joinWords (rest.drop 1))))
  | .countDown => named k .countDown words
  | .define => named k .define words
  | .array => named k .array words
  | .push =>
    match words with
    | [] => .error (.missing k "name")
    | [_] => .error (.missing k "_")
    | [_, _] => .error (.missing k "value")
    | name :: _ :: value :: _ => integer k value (.push name)
  | .pop => named k .pop words
  | .dict => named k .dict words
  | .set =>
    match words with
    | [] => .error (.missing k "name")
    | [_] => .error (.missing k "key")
    | [_, _] => .error (.missing k "_")
    | [_, _, _] => .error (.missing k "value")
    | name :: key :: _ :: value :: _ => integer k value (.set name key)
  | .get =>
    match words with
    | [] => .error (.missing k "name")
    | [_] => .error (.missing k "key")
    | name :: key :: _ => .ok (.get name key)
  | .newClass => named k .newClass words
  | .method =>
    match words with
    | [] => .error (.missing k "class")
    | [_] => .error (.missing k "method")
    | name :: added :: _ => .ok (.method name added)
  | .attempt => .ok (.attempt (joinWords words))
  | .help => named k .help words
  | .exit => .ok .exit
  | .save => named k .save words
  | .load => named k .load words
  | .delete => named k .delete words
  | .clear => .ok .clear

end Command

end Linewise
