import TunnelBoard.Session.Basic
import TunnelBoard.Style.Basic
import TunnelBoard.Text.Wrap
import TunnelBoard.Time.Calendar
/-
  What stands on the screen in each phase: the lines inside the box, before they are boxed.

  `inner` is the width of the box inside.  Text that may be long is wrapped or cut to it; what is
  wider for other reasons is cut when the frame is put together.
-/

namespace TunnelBoard
namespace Content

/-- The width of the labels on the screen of the data plane. -/
def labelWidth : Nat := 12

/-- The width of the labels on the settings screen. -/
def settingsLabelWidth : Nat := 16

/-! ## Parts -/

def titleLine (styles : StyleSet) (subtitle : Text) : Text :=
  styles.paint .brand "tundash".toList ++ "  ".toList ++ styles.paint .muted subtitle

/-- Hints at the bottom, cut to the box. -/
def hintLine (styles : StyleSet) (context : HintContext) (inner : Nat) : Text :=
  styles.paint .muted (truncate context.line inner)

/-- A blank line and the hints, if they are wanted. -/
def footer (p : Preferences) (context : HintContext) (styles : StyleSet) (inner : Nat) : List Text :=
  if p.showFooter then [[], hintLine styles context inner] else []

/-- Text over as many lines as it takes. -/
def paragraph (text : Text) (role : Role) (styles : StyleSet) (inner : Nat) : List Text :=
  (wrap text inner).map (styles.paint role)

/-! ## Before the monitor -/

/-- The modes on offer, the one under the cursor highlighted. -/
def modeRows (picker : ModePicker) (styles : StyleSet) (inner : Nat) : List Text :=
  picker.modes.zipIdx.map fun m =>
    if m.2 = picker.selected then styles.activeRow ("> ".toList ++ m.1.title) inner
    else styles.paint .text ("  ".toList ++ m.1.title)

def configuring (s : Session) (styles : StyleSet) (inner : Nat) : List Text :=
  let title := [titleLine styles "select tunnel mode".toList, []]
  match s.picker with
  | none => title
  | some picker =>
    title ++ modeRows picker styles inner ++ [[]]
      ++ paragraph picker.current.description .muted styles inner
      ++ footer s.prefs .configurator styles inner

def waiting (s : Session) (styles : StyleSet) (inner : Nat) : List Text :=
  let target :=
    match s.pendingMode <|> s.lastMode with
    | some mode => mode.title
    | none => "tunnel".toList
  [titleLine styles "starting".toList, []]
    ++ paragraph ("Starting ".toList ++ target ++ " data plane...".toList) .text styles inner
    ++ paragraph "Waiting for the runtime to come up.".toList .muted styles inner
    ++ footer s.prefs .waiting styles inner

/-! ## The monitor -/

/-- A rate and a total. -/
def trafficValue (styles : StyleSet) (rate total : Nat) (unit : StatsUnit) : Text :=
  styles.paint .text (rateText rate unit) ++ "  ".toList
    ++ styles.paint .muted ("total ".toList ++ bytesText total unit)

/-- The width of the traffic graphs. -/
def graphWidth (inner : Nat) : Nat := max (inner - labelWidth) 1

def row (label : String) (value : Text) : Text := labelRow label.toList labelWidth value

/-- The figures of the data plane. -/
def statsRows (r : Monitor) (styles : StyleSet) : List Text :=
  if r.prefs.showStats then
    [[], row "Download" (trafficValue styles r.traffic.rxRate r.traffic.rxTotal r.prefs.unit),
      row "Upload" (trafficValue styles r.traffic.txRate r.traffic.txTotal r.prefs.unit)]
  else []

/-- The graphs of the data plane, from their traces. -/
def graphRows (rx tx : Text) (styles : StyleSet) : List Text :=
  [[], row "RX" (styles.paint .brand rx), row "TX" (styles.paint .accent tx)]

/-- What the screen of the data plane says of the connection. -/
def statusRows (r : Monitor) (styles : StyleSet) (now : Int) : List Text :=
  let status :=
    if r.connected then styles.paint .brand "● connected".toList
    else styles.paint .accent "○ connecting...".toList
  let uptime := durationText (now - r.startedAt).toNat
  [row "Mode" (styles.paint .text r.mode.title), row "Status" status,
    row "Uptime" (styles.paint .muted uptime)]

def onOff (b : Bool) : Text := (if b then "on" else "off").toList

/-- The value of a setting as it is shown. -/
def settingValue (p : Preferences) : SettingsRow → Text
  | .theme => "< ".toList ++ p.theme.name ++ " >".toList
  | .units =>
    match p.unit with
    | .decimal => "decimal (kB/s)".toList
    | .binary => "binary (KiB/s)".toList
  | .statsPanel => onOff p.showStats
  | .trafficGraph => onOff p.showGraph
  | .footer => onOff p.showFooter

def settings (p : Preferences) (selected : SettingsRow) (styles : StyleSet) (inner : Nat) :
    List Text :=
  SettingsRow.all.map fun setting =>
    let value := labelRow setting.label settingsLabelWidth (settingValue p setting)
    if setting = selected then styles.activeRow ("> ".toList ++ value) inner
    else styles.paint .text ("  ".toList ++ value)

/-- The line after the last one in the window on the log. -/
def windowEnd (r : Monitor) : Nat := r.logLines.length - r.logScroll

/-- The first line in the window on the log. -/
def windowStart (r : Monitor) : Nat := windowEnd r - r.viewportRows

/-- The lines in the window on the log. -/
def window (r : Monitor) : List Text :=
  (r.logLines.drop (windowStart r)).take (windowEnd r - windowStart r)

/-- Where the window on the log stands. -/
def windowStatus (r : Monitor) : Text :=
  let state := (if r.logFollow then "following" else "paused").toList
  if r.logLines.isEmpty then state ++ " · no log lines yet".toList
  else
    state ++ " · lines ".toList ++ natText (windowStart r + 1) ++ '-' :: natText (windowEnd r)
      ++ " of ".toList ++ natText r.logLines.length

/-- The window on the log, filled up with blank lines, and where it stands. -/
def logs (r : Monitor) (styles : StyleSet) (inner : Nat) : List Text :=
  let shown := (window r).map fun l => styles.paint .text (truncate (strip l) inner)
  shown ++ List.replicate (r.viewportRows - shown.length) []
    ++ [styles.paint .muted (truncate (windowStatus r) inner)]

/-- One answer to the question whether to stop. -/
def button (styles : StyleSet) (selected choice : ConfirmChoice) : Text :=
  let text := "[ ".toList ++ choice.label ++ " ]".toList
  if choice = selected then styles.paint .active text else styles.paint .muted text

def confirm (r : Monitor) (choice : ConfirmChoice) (styles : StyleSet) (inner : Nat) : List Text :=
  [titleLine styles r.mode.title, []]
    ++ paragraph "Stop the data plane and return to mode selection?".toList .text styles inner
    ++ [[], button styles choice .goOn ++ "   ".toList ++ button styles choice .stop]
    ++ footer r.prefs .confirm styles inner

/-! ## The end -/

def fatal (s : Session) (styles : StyleSet) (inner : Nat) : List Text :=
  let report :=
    match s.fatal with
    | none => []
    | some report =>
      [styles.paint .muted (momentText report.time), []]
        ++ paragraph report.message .text styles inner
  styles.paint .accent "Fatal error".toList :: report ++ [[], hintLine styles .fatal inner]

end Content
end TunnelBoard
