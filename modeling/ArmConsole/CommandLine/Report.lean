import ArmConsole.Console

/-!
The report on a console after a run: the position of the beam, the cycles and the registers, as
JSON with an indentation of two blanks for each level.
-/

namespace ArmConsole

structure RegisterDump where
  registers : Registers
  status : StatusWord
  mode : Mode
  saved : Option StatusWord
  deriving DecidableEq

def Processor.dump (p : Processor) : RegisterDump := ⟨p.live, p.status, p.mode, p.saved?⟩

namespace CommandLine

structure Report where
  line : Word
  field : Word
  cycles : UInt64
  registers : RegisterDump
  deriving DecidableEq

namespace Report

def of {δ : Type} (c : Console δ) : Report := ⟨c.line, c.field, c.cycles, c.machine.processor.dump⟩

/-- Lines with a comma behind all but the last. -/
def commaSeparated : List String → List String
  | [] => []
  | [line] => [line]
  | line :: lines => (line ++ ",") :: commaSeparated lines

def lines (r : Report) : List String :=
  let dump := r.registers
  let saved :=
    match dump.saved with
    | some saved => toString saved.word
    | none => "null"
  let registers := dump.registers.toList.map fun w => s!"      {w}"
  ["\x7b",
    "  \"counters\": \x7b",
    s!"    \"line\": {r.line},",
    s!"    \"field\": {r.field}",
    "  \x7d,",
    s!"  \"cycles\": {r.cycles},",
    "  \"cpu\": \x7b",
    "    \"registers\": ["] ++
  commaSeparated registers ++
  ["    ],",
    s!"    \"cpsr\": {dump.status.word},",
    s!"    \"mode\": \"{dump.mode.name}\",",
    s!"    \"spsr\": {saved}",
    "  \x7d",
    "\x7d"]

def text (r : Report) : String := "\n".intercalate r.lines ++ "\n"

end Report

end CommandLine

end ArmConsole
