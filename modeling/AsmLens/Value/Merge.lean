import AsmLens.Value.Basic

namespace AsmLens

mutual

def Value.laidOver (old : Option Value) (new : Value) : Value :=
  match old, new with
  | some (.table base), .table changes => .table (Entries.merge base changes)
  | _, .null => .null
  | _, .bool b => .bool b
  | _, .int n => .int n
  | _, .float x => .float x
  | _, .text s => .text s
  | _, .moment m => .moment m
  | _, .array items => .array items
  | _, .table entries => .table entries
termination_by structural new

def Entries.merge (base : Entries) (changes : Entries) : Entries :=
  match changes with
  | [] => base
  | (k, v) :: rest => Entries.merge (Assoc.put base k (Value.laidOver (Assoc.get? base k) v)) rest
termination_by structural changes

end

def Value.at? (v : Value) (path : List String) : Option Value :=
  match path, v with
  | [], v => some v
  | k :: rest, .table entries =>
    match Assoc.get? entries k with
    | some w => Value.at? w rest
    | none => none
  | _ :: _, _ => none

end AsmLens
