import Intcode.Event

namespace Intcode

inductive Level where
  | debug
  | info
  | warning
  | error
  deriving Repr, DecidableEq

namespace Level

def rank : Level → Nat
  | debug => 0
  | info => 1
  | warning => 2
  | error => 3

def name : Level → String
  | debug => "DEBUG"
  | info => "INFO"
  | warning => "WARNING"
  | error => "ERROR"

end Level

inductive Channel where
  | library
  | machine
  | pipeline
  | serialLink
  | commandLine
  deriving Repr, DecidableEq

def Channel.name : Channel → String
  | library => "intcode_vm"
  | machine => "intcode_vm.emu"
  | pipeline => "intcode_vm.pipeline"
  | serialLink => "intcode_vm.serial_link"
  | commandLine => "intcodekit"

structure Record where
  level : Level
  channel : Channel
  message : String
  deriving Repr, DecidableEq

def Record.line (record : Record) : String :=
  s!"{record.level.name}: {record.message}\n"

def Record.fileLine (time place : String) (record : Record) : String :=
  let level := String.ofList (Text.padEnd 7 ' ' record.level.name.toList)
  s!"{time} | {level} | {record.channel.name} | {place} | {record.message}\n"

namespace Event

open Numeral (render)

def renderSignal : Option Int → String
  | some signal => render signal
  | none => "None"

def numbers : Event → List Int
  | sighted s => [s.addr, s.old, s.new]
  | skipped noun verb _ => [noun, verb]
  | found noun verb target => [noun, verb, target]
  | loopEnded _ signal => signal.toList
  | _ => []

def IsWritable (event : Event) : Prop :=
  ∀ v ∈ event.numbers, Numeral.Short v

instance (event : Event) : Decidable event.IsWritable :=
  inferInstanceAs (Decidable (∀ v ∈ event.numbers, Numeral.Short v))

def wording? : Event → Option Record
  | sighted _ => none
  | executed entry => some ⟨.debug, .machine, entry.render⟩
  | halted name steps => some ⟨.debug, .machine, s!"{name} halted after {render steps} steps"⟩
  | faulted name ip => some ⟨.debug, .machine, s!"{name} faulted at ip={render ip}"⟩
  | skipped noun verb fault =>
    some ⟨.debug, .pipeline, s!"noun={render noun} verb={render verb} faulted: {fault.message}"⟩
  | found noun verb target =>
    some ⟨.info, .pipeline,
      s!"Found noun={render noun} verb={render verb} -> {render target}"⟩
  | starved name =>
    some ⟨.warning, .pipeline, s!"{name} still waiting for input after the loop stopped"⟩
  | loopEnded rounds signal =>
    some ⟨.debug, .pipeline,
      s!"feedback loop done after {render rounds} rounds, signal={renderSignal signal}"⟩
  | serving name port => some ⟨.info, .serialLink, s!"Serving {name} on {port}"⟩
  | sent value => some ⟨.debug, .serialLink, s!"TX {render value}"⟩
  | received value => some ⟨.debug, .serialLink, s!"RX {render value}"⟩
  | served name sentCount receivedCount =>
    some ⟨.info, .serialLink,
      s!"{name} halted: {render sentCount} sent, {render receivedCount} received"⟩

-- A sighting is told to whoever asked for it, and what cannot be written is lost.
def record? (event : Event) : Option Record :=
  if event.IsWritable then event.wording? else none

end Event

end Intcode
