import PenRail.CommandLine.Parse
import PenRail.Config.Search

/-!
# What the command line settles

A setting given on the command line wins over the file, setting by setting. The polarity of the power-good line can only
be turned active low: either place is enough.
-/

namespace PenRail.CommandLine

open Config (Settings Files)

/-- Settings with what was given on the command line put in. -/
def Given.override (g : Given) (s : Settings) : Settings where
  digitizer := {
    bus := g.penBus.getD s.digitizer.bus
    address := g.penAddress.getD s.digitizer.address
    irqLine := g.penIrqLine <|> s.digitizer.irqLine
    pollInterval := g.pollInterval.getD s.digitizer.pollInterval }
  regulator := {
    bus := g.powerBus.getD s.regulator.bus
    address := g.powerAddress.getD s.regulator.address
    powerGoodLine := g.powerGoodLine <|> s.regulator.powerGoodLine
    powerGoodActiveLow := g.activeLow || s.regulator.powerGoodActiveLow }

/-- The settings a command runs with: the command line over the file that was found, over the defaults. -/
def Given.settings (g : Given) (files : Files) (home : Option String) : Settings × List Log.Entry :=
  let (found, entries) := Config.search files (Config.candidates g.config home)
  (g.override (found.getD {}), entries)

end PenRail.CommandLine
