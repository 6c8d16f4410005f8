import Transport.Ram
import Transport.Segment.Compilation

/-!
# Machine Configuration

What is decided about a machine before it exists.

## Main definitions

* `Config`: Memory, entry point, compilation, and the size of segments.
* `Config.description`: The text a debugger shows.
-/

namespace Transport

/-- The size of RAM where nothing else is asked: 8 MiB. -/
def defaultRamSize : Nat := 8 <<< 20

/-- What is decided about a machine before it exists. -/
structure Config where
  /-- The size of RAM in bytes. -/
  ramSize : Nat := defaultRamSize
  /-- The index of the instruction at which execution begins. -/
  entry : Nat := 0
  /-- How RAM is filled at first. -/
  ramInit : RamInit := .known 0
  /-- How segments are compiled. RAM holds data next to code, so this is lenient
      by default. -/
  options : Options := { strict := false, singleStep := true }
  /-- The size of the windows into which execution is split. Without one, all of
      RAM is one segment. -/
  segmentSize : Option Word := none
  deriving DecidableEq, Repr

namespace Config

/-- The text a debugger shows. -/
def description (config : Config) : String :=
  Layout.record "MachineConfig" [
    ("ram_size", Numeral.decimal config.ramSize),
    ("entry", Numeral.decimal config.entry),
    ("ram_init", config.ramInit.description),
    ("compile", config.options.description),
    ("segment_size", Layout.optional (config.segmentSize.map Op.wordText))]

end Config

end Transport
