import AsmLens.Text.Blank
import AsmLens.Text.Front

namespace AsmLens

inductive Language where
  | c
  | cxx
  | objC
  | objCxx
  deriving DecidableEq, Repr

namespace Language

def all : List Language := [.c, .cxx, .objC, .objCxx]

def name : Language → String
  | .c => "c"
  | .cxx => "c++"
  | .objC => "objective-c"
  | .objCxx => "objective-c++"

def ofName? (s : String) : Option Language := all.find? (·.name == s)

def isCxx : Language → Bool
  | .cxx => true
  | .objCxx => true
  | _ => false

def isObjC : Language → Bool
  | .objC => true
  | .objCxx => true
  | _ => false

def ending : Language → String
  | .c => ".c"
  | .cxx => ".cpp"
  | .objC => ".m"
  | .objCxx => ".mm"

def defaultStandard (l : Language) : String := if l.isCxx then "c++1y" else "c11"

def plusPlus : List Char := ['+', '+']

def gnu : List Char := ['g', 'n', 'u']

def standard (l : Language) (asked : String) : String :=
  let s := Text.trim asked
  if s = "" then l.defaultStandard
  else if !l.isCxx && Text.holds plusPlus s.toList then
    (if Text.holds gnu s.toList then "gnu11" else l.defaultStandard)
  else s

theorem ofName?_name (l : Language) : ofName? l.name = some l := by
  cases l <;> decide

end Language

inductive Optimization where
  | o0
  | o1
  | o2
  | o3
  | o4
  | size
  deriving DecidableEq, Repr

namespace Optimization

def all : List Optimization := [.o0, .o1, .o2, .o3, .o4, .size]

def name : Optimization → String
  | .o0 => "0"
  | .o1 => "1"
  | .o2 => "2"
  | .o3 => "3"
  | .o4 => "4"
  | .size => "s"

def ofName? (s : String) : Option Optimization := all.find? (·.name == s)

theorem ofName?_name (o : Optimization) : ofName? o.name = some o := by
  cases o <;> decide

end Optimization

inductive WordSize where
  | bits32
  | bits64
  deriving DecidableEq, Repr

def WordSize.bits : WordSize → Nat
  | .bits32 => 32
  | .bits64 => 64

end AsmLens
