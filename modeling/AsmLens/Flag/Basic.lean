import AsmLens.Text.Blank

namespace AsmLens

inductive Flag.Kind where
  | language
  | target
  | output
  | standard
  | optimization
  | exceptions
  | rtti
  | floatingPoint
  | warning
  | includePath
  | define
  | undef
  | debug
  | extra
  deriving DecidableEq, Repr

structure Flag where
  kind : Flag.Kind
  text : String
  deriving DecidableEq, Repr

namespace Flag

namespace Kind

def all : List Kind :=
  [.language, .target, .output, .standard, .optimization, .exceptions, .rtti, .floatingPoint,
    .warning, .includePath, .define, .undef, .debug, .extra]

def name : Kind → String
  | .language => "language"
  | .target => "target"
  | .output => "output"
  | .standard => "standard"
  | .optimization => "optimization"
  | .exceptions => "exceptions"
  | .rtti => "rtti"
  | .floatingPoint => "floating-point"
  | .warning => "warning"
  | .includePath => "include"
  | .define => "define"
  | .undef => "undef"
  | .debug => "debug"
  | .extra => "extra"

def ofName? (s : String) : Option Kind := all.find? (·.name == s)

def rank : Kind → Nat
  | .language => 0
  | .target => 1
  | .output => 2
  | .standard => 3
  | .optimization => 4
  | .exceptions => 5
  | .rtti => 6
  | .floatingPoint => 7
  | .warning => 8
  | .includePath => 9
  | .define => 10
  | .undef => 11
  | .debug => 12
  | .extra => 13

end Kind

def ofTexts (kind : Kind) (texts : List String) : List Flag := texts.map (Flag.mk kind)

def add (flags : List Flag) (kind : Kind) (texts : List String) : List Flag :=
  flags ++ ofTexts kind texts

def present (flags : List Flag) : List Flag := flags.filter fun f => !Text.isBlankText f.text

end Flag

end AsmLens
