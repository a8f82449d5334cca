import TunnelBoard.Text.Blank
import TunnelBoard.Text.Quoted
/-
  The two ways a tunnel can carry traffic.
-/

namespace TunnelBoard

inductive Mode where
  /-- A virtual network interface for the whole host. -/
  | tun
  /-- A local proxy for programs that are set up to use it. -/
  | proxy
  deriving DecidableEq, Repr

namespace Mode

/-- All modes, in menu order. -/
def all : List Mode := [tun, proxy]

/-- The short name, in files and messages. -/
def name : Mode → Text
  | tun => "tun".toList
  | proxy => "proxy".toList

/-- The name on the screen. -/
def title : Mode → Text
  | tun => "TUN (system-wide)".toList
  | proxy => "Proxy (SOCKS5/HTTP)".toList

def description : Mode → Text
  | tun =>
    ("Creates a virtual network interface and routes all host traffic through the tunnel. "
      ++ "Requires elevated privileges.").toList
  | proxy =>
    ("Starts a local SOCKS5 and HTTP listener. "
      ++ "Only applications configured to use the proxy are tunneled.").toList

/-- The mode with exactly this short name. -/
def ofName? (s : Text) : Option Mode := all.find? fun m => m.name = s

/-- A mode as an operator may type it: blanks around it and the case of letters do not matter, and
    `socks` is another word for the proxy.  What is none of them comes back as it was understood. -/
def parse (s : Text) : Except Text Mode :=
  let key := lowerAscii (trim s)
  if key = "socks".toList then .ok proxy
  else
    match ofName? key with
    | some m => .ok m
    | none => .error key

/-- The complaint about a word that is no mode. -/
def unknownMessage (key : Text) : Text := "unknown tunnel mode ".toList ++ quoted key

end Mode
end TunnelBoard
