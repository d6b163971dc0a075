namespace MidiStorage

inductive Operation
  | list
  | download
  | upload
  | rename
  | move
  | copy
  | swap
  | delete
  | mkdir
  | clear
  deriving DecidableEq, Repr

namespace Operation

def all : List Operation :=
  [list, download, upload, rename, move, copy, swap, delete, mkdir, clear]

def name : Operation → String
  | list => "list"
  | download => "download"
  | upload => "upload"
  | rename => "rename"
  | move => "move"
  | copy => "copy"
  | swap => "swap"
  | delete => "delete"
  | mkdir => "mkdir"
  | clear => "clear"

def ofName? : String → Option Operation
  | "ls" | "list" => some list
  | "dl" | "download" => some download
  | "ul" | "upload" => some upload
  | "rename" => some rename
  | "mv" | "move" => some move
  | "cp" | "copy" => some copy
  | "sw" | "swap" => some swap
  | "rm" | "rmdir" | "delete" => some delete
  | "mkdir" => some mkdir
  | "cl" | "clear" => some clear
  | _ => none

def bit : Operation → Nat
  | list => 0
  | download => 1
  | upload => 2
  | rename => 3
  | move => 4
  | copy => 5
  | swap => 6
  | delete => 7
  | mkdir => 8
  | clear => 9

def mask (op : Operation) : Nat := 1 <<< op.bit

end Operation

structure Capabilities where
  allows : Operation → Bool

namespace Capabilities

def ofList (ops : List Operation) : Capabilities := ⟨fun op => ops.contains op⟩

def ofBits (bits : Nat) : Capabilities := ⟨fun op => bits.testBit op.bit⟩

def bits (c : Capabilities) : Nat :=
  (Operation.all.filter c.allows).foldl (fun bits op => bits + op.mask) 0

end Capabilities

end MidiStorage
