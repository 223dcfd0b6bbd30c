import AsmLens.Fault
import AsmLens.Options.Resolve

namespace AsmLens.Options

/-- A step in the life of options. Names such as `__dict__` are the runtime's own; no step assigns
to one. -/
inductive Change where
  | create (data : Value)
  | update (changes : Entries)
  | assign (name : String) (value : Value)

def Change.apply (dir : String) (current : Option Options) : Change → Except Fault Options
  | .create data => (resolve dir data).mapError Fault.ofRefusal
  | .update changes =>
    match current with
    | none => .error .noOptions
    | some o => (o.update dir changes).mapError Fault.ofRefusal
  | .assign name v =>
    match current with
    | none => .error .noOptions
    | some o => (o.assign name v).mapError Fault.ofRefusal

def history (dir : String) (current : Option Options) : List Change → List (Except Fault Options)
  | [] => []
  | c :: cs =>
    match c.apply dir current with
    | .ok o => .ok o :: history dir (some o) cs
    | .error f => .error f :: history dir current cs

end AsmLens.Options
