import LineShell.Text.Basic

/-!
# Commands

A pipeline is a row of stages. Each stage has a program, its arguments (the first is the command's
name as typed) and the files that replace its standard input and output.
-/

namespace LineShell

/-- A command that the shell runs itself. -/
inductive Builtin where
  | cd
  deriving DecidableEq, Repr

namespace Builtin

/-- Every built-in command. -/
def all : List Builtin := [cd]

/-- The name that a built-in command is called by. -/
def name : Builtin → Text
  | cd => ['c', 'd']

/-- The built-in command of a given name. -/
def ofName? (name : Text) : Option Builtin :=
  all.find? (·.name == name)

end Builtin

/-- What a stage runs: a built-in command or the program file at a path. -/
inductive Program where
  | builtin (command : Builtin)
  | external (path : Text)
  deriving DecidableEq, Repr

/-- The files that replace a stage's standard input and output. -/
structure Redirects where
  input : Option Text := none
  output : Option Text := none
  /-- The output is added at the end of its file instead of replacing it. -/
  append : Bool := false
  deriving DecidableEq, Repr

/-- Whether neither input nor output is replaced. -/
def Redirects.isEmpty (r : Redirects) : Bool :=
  r.input.isNone && r.output.isNone

/-- One command of a pipeline. -/
structure Stage where
  program : Program
  argv : List Text
  redirects : Redirects := {}
  deriving DecidableEq, Repr

/-- The command's name as typed, empty if there are no arguments at all. -/
def Stage.name (stage : Stage) : Text :=
  stage.argv.headD []

/-- The built-in command that a stage runs, if it runs one. -/
def Stage.builtin? (stage : Stage) : Option Builtin :=
  match stage.program with
  | .builtin command => some command
  | .external _ => none

/-- Commands whose outputs and inputs are joined from left to right. -/
structure Pipeline where
  stages : List Stage
  deriving DecidableEq, Repr

namespace Pipeline

/-- The number of stages. -/
def size (p : Pipeline) : Nat :=
  p.stages.length

/-- Whether there are no stages. -/
def isEmpty (p : Pipeline) : Bool :=
  p.stages.isEmpty

/-- The first built-in command among the stages. -/
def builtin? (p : Pipeline) : Option Builtin :=
  p.stages.findSome? Stage.builtin?

end Pipeline

end LineShell
