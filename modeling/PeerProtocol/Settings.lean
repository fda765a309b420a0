import PeerProtocol.Dialect
import PeerProtocol.Text.Decimal

/-!
# Settings

What a user chooses for the engine: defaults, which a settings file replaces as a whole and
environment variables override one by one. A network is kept under the name it was given, and only
resolved when it is needed; a name that stands for no network resolves to the main one.
-/

namespace PeerProtocol

/-- The engine's settings. The timeout is in milliseconds; the port 0 stands for the network's
own. -/
structure Settings where
  network : String
  version : UInt32
  retain : Bool
  connectTimeout : UInt64
  listenPort : UInt16
deriving DecidableEq, Repr

namespace Settings

/-- The settings of a user who chooses nothing. -/
def initial : Settings where
  network := "main"
  version := Dialect.currentVersion
  retain := false
  connectTimeout := 10000
  listenPort := 0

/-- The network that the settings resolve to. -/
def resolved (settings : Settings) : Network :=
  (Network.ofName? settings.network).getD .main

/-- The dialect that the settings ask for. -/
def dialect (settings : Settings) : Dialect :=
  ⟨settings.resolved, settings.version, settings.retain⟩

/-- The port to listen on. -/
def effectivePort (settings : Settings) : UInt16 :=
  if settings.listenPort = 0 then settings.resolved.port else settings.listenPort

/-- A truth value in words. -/
def boolean? (text : String) : Option Bool :=
  if text = "true" then some true
  else if text = "false" then some false
  else none

/-- A number below a bound. -/
def number? (bound : Nat) (text : String) : Option Nat :=
  Text.unsigned? bound text.toList

/-- The settings after environment variables override them. A number or truth value that cannot be
read is ignored; a network is taken as it is named. -/
def override (settings : Settings) (lookup? : String → Option String) : Settings where
  network := (lookup? "BTC_WIRE_NETWORK").getD settings.network
  version := (((lookup? "BTC_WIRE_PROTOCOL_VERSION").bind (number? UInt32.size)).map
    UInt32.ofNat).getD settings.version
  retain := ((lookup? "BTC_WIRE_PARSE_RETAIN").bind boolean?).getD settings.retain
  connectTimeout := (((lookup? "BTC_WIRE_CONNECT_TIMEOUT_MS").bind (number? UInt64.size)).map
    UInt64.ofNat).getD settings.connectTimeout
  listenPort := (((lookup? "BTC_WIRE_LISTEN_PORT").bind (number? UInt16.size)).map
    UInt16.ofNat).getD settings.listenPort

end Settings

end PeerProtocol
