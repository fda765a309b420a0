import PeerProtocol.Proofs.Text.Decimal
import PeerProtocol.Settings

/-!
# What environment variables override

Each variable overrides its own setting if it is set to a text that can be read, and leaves the
setting as it was otherwise: `Overridden` says so once for every setting. A number is read if its
decimal text writes a value of the setting's type. The variable of the network is the exception. It
is not read before it is kept, so a name that stands for no network replaces the one that the
settings had and resolves to the main network, with the port that belongs to it (`overriding`,
`not_overridden_moonnet`).
-/

namespace PeerProtocol

/-- The names under which users know a network. -/
def Network.names : Network → List String
  | main => ["main", "mainnet"]
  | test => ["test", "testnet", "testnet3"]
  | regtest => ["regtest"]
  | signet => ["signet"]

/-- A name stands for the network that is known under it. -/
theorem Network.ofName?_eq_some_iff {name : String} {network : Network} :
    ofName? name = some network ↔ name ∈ network.names := by
  constructor
  next =>
    intro h
    unfold ofName? at h
    split at h <;> cases h <;> decide
  next =>
    intro h
    cases network <;> simp only [names, List.mem_cons, List.not_mem_nil, or_false] at h
    case main => rcases h with rfl | rfl <;> rfl
    case test => rcases h with rfl | rfl | rfl <;> rfl
    case regtest => subst h; rfl
    case signet => subst h; rfl

namespace Settings

/-- `Overridden variable Reads before after` holds if a text that is given and can be read makes the
setting what it reads as, and anything else leaves the setting as it was before. -/
structure Overridden {α : Type} (given? : Option String) (Reads : String → α → Prop)
    (before after : α) : Prop where
  /-- A given text that can be read decides the setting. -/
  read {text : String} {value : α} : given? = some text → Reads text value → after = value
  /-- Without such a text nothing changes. -/
  ignored : (∀ text, given? = some text → ∀ value, ¬ Reads text value) → after = before

section Overridden

variable {α β : Type} {given? : Option String} {Reads : String → α → Prop} {before after : α}

/-- A setting that is read if a text is given, and kept otherwise, is overridden. -/
theorem overridden_of_iff {read? : String → Option α}
    (hread : ∀ text value, read? text = some value ↔ Reads text value) :
    Overridden given? Reads before ((given?.bind read?).getD before) where
  read := by
    intro text value hset hreads
    rw [hset, Option.bind_some, (hread text value).2 hreads, Option.getD_some]
  ignored := by
    intro hunread
    have hnone : given?.bind read? = none := by
      rw [Option.eq_none_iff_forall_ne_some]
      intro value h
      obtain ⟨text, hset, hvalue⟩ := Option.bind_eq_some_iff.1 h
      exact hunread text hset value ((hread text value).1 hvalue)
    rw [hnone, Option.getD_none]

/-- What depends on an overridden setting is overridden with it. -/
theorem Overridden.map (h : Overridden given? Reads before after) (f : α → β) :
    Overridden given? (fun text result => ∃ value, Reads text value ∧ result = f value)
      (f before) (f after) where
  read := by
    rintro text _ hset ⟨value, hreads, rfl⟩
    rw [h.read hset hreads]
  ignored := by
    intro hunread
    have hsame : after = before :=
      h.ignored fun text hset value hreads => hunread text hset (f value) ⟨value, hreads, rfl⟩
    rw [hsame]

end Overridden

/-- A truth value is read from its word. -/
theorem boolean?_eq_some_iff {text : String} {value : Bool} :
    boolean? text = some value ↔ text = toString value := by
  unfold boolean?
  split
  next htrue =>
    subst htrue
    cases value <;> decide
  next htrue =>
    split
    next hfalse =>
      subst hfalse
      cases value <;> decide
    next hfalse =>
      cases value with
      | false => exact ⟨(nomatch ·), (absurd · hfalse)⟩
      | true => exact ⟨(nomatch ·), (absurd · htrue)⟩

/-- A number of a type is overridden by a text that writes a value of the type. -/
theorem overridden_number {α : Type} {ofNat : Nat → α} {toNat : α → Nat} {bound : Nat}
    (hofNat : ∀ value, ofNat (toNat value) = value)
    (htoNat : ∀ number < bound, toNat (ofNat number) = number)
    (hbound : ∀ value, toNat value < bound) {given? : Option String} {before : α} :
    Overridden given? (fun text value => Text.Writes text.toList (toNat value)) before
      (((given?.bind (number? bound)).map ofNat).getD before) := by
  rw [Option.map_bind]
  apply overridden_of_iff
  intro text value
  rw [Function.comp_apply, Option.map_eq_some_iff]
  constructor
  next =>
    rintro ⟨number, hread, rfl⟩
    obtain ⟨hwrites, hlt⟩ := Text.unsigned?_eq_some_iff.1 hread
    rwa [htoNat number hlt]
  next =>
    intro hwrites
    exact ⟨toNat value, Text.unsigned?_eq_some_iff.2 ⟨hwrites, hbound value⟩, hofNat value⟩

/-- The variable of the network, if it is set, names a network. -/
def NetworkKnown (lookup? : String → Option String) : Prop :=
  ∀ name, lookup? "BTC_WIRE_NETWORK" = some name → ∃ network : Network, name ∈ network.names

/-- A variable that names a network decides which network the settings resolve to. -/
theorem resolved_override_of_known {settings : Settings} {lookup? : String → Option String}
    (hknown : NetworkKnown lookup?) :
    (settings.override lookup?).resolved =
      ((lookup? "BTC_WIRE_NETWORK").bind Network.ofName?).getD settings.resolved := by
  cases hset : lookup? "BTC_WIRE_NETWORK" with
  | none => simp only [resolved, override, hset, Option.getD_none, Option.bind_none]
  | some name =>
    obtain ⟨network, hname⟩ := hknown name hset
    have hread : Network.ofName? name = some network := Network.ofName?_eq_some_iff.2 hname
    simp only [resolved, override, hset, Option.getD_some, Option.bind_some, hread]

/-- Settings under an unknown name resolve to the main network. -/
theorem resolved_of_unknown {settings : Settings}
    (h : ∀ network : Network, settings.network ∉ network.names) : settings.resolved = .main := by
  have hnone : Network.ofName? settings.network = none :=
    Option.eq_none_iff_forall_ne_some.2 fun network hread =>
      h network (Network.ofName?_eq_some_iff.1 hread)
  rw [resolved, hnone, Option.getD_none]

/-- What the variables that a lookup finds do to settings. -/
structure Overriding (settings : Settings) (lookup? : String → Option String) : Prop where
  /-- The version is the number below `2 ^ 32` that its variable writes. -/
  version : Overridden (lookup? "BTC_WIRE_PROTOCOL_VERSION")
    (fun text value => Text.Writes text.toList value.toNat)
    settings.version (settings.override lookup?).version
  /-- Bytes are retained as the word of the variable says. -/
  retain : Overridden (lookup? "BTC_WIRE_PARSE_RETAIN") (fun text value => text = toString value)
    settings.retain (settings.override lookup?).retain
  /-- The timeout is the number below `2 ^ 64` that its variable writes. -/
  connectTimeout : Overridden (lookup? "BTC_WIRE_CONNECT_TIMEOUT_MS")
    (fun text value => Text.Writes text.toList value.toNat)
    settings.connectTimeout (settings.override lookup?).connectTimeout
  /-- The port is the number below `2 ^ 16` that its variable writes. -/
  listenPort : Overridden (lookup? "BTC_WIRE_LISTEN_PORT")
    (fun text value => Text.Writes text.toList value.toNat)
    settings.listenPort (settings.override lookup?).listenPort
  /-- The network is the one that its variable names, unless the variable names none. -/
  resolved : NetworkKnown lookup? →
    Overridden (lookup? "BTC_WIRE_NETWORK") (fun name network => name ∈ network.names)
      settings.resolved (settings.override lookup?).resolved
  /-- So is the port of the network, where no other is asked for. -/
  effectivePort : NetworkKnown lookup? → (settings.override lookup?).listenPort = 0 →
    Overridden (lookup? "BTC_WIRE_NETWORK")
      (fun name port => ∃ network : Network, name ∈ network.names ∧ port = network.port)
      settings.resolved.port (settings.override lookup?).effectivePort
  /-- A port that is asked for is the one to listen on. -/
  explicitPort : (settings.override lookup?).listenPort ≠ 0 →
    (settings.override lookup?).effectivePort = (settings.override lookup?).listenPort
  /-- A variable that names no network makes it the main one. -/
  unknown {name : String} : lookup? "BTC_WIRE_NETWORK" = some name →
    (∀ network : Network, name ∉ network.names) → (settings.override lookup?).resolved = .main

/-- Every variable that can be read overrides its setting, and one that cannot leaves it, except
for the network: an unknown name makes it the main one. -/
theorem overriding (settings : Settings) (lookup? : String → Option String) :
    Overriding settings lookup? where
  version := overridden_number (fun _ => UInt32.ofNat_toNat)
    (fun _ => UInt32.toNat_ofNat_of_lt') UInt32.toNat_lt_size
  retain := overridden_of_iff fun _ _ => boolean?_eq_some_iff
  connectTimeout := overridden_number (fun _ => UInt64.ofNat_toNat)
    (fun _ => UInt64.toNat_ofNat_of_lt') UInt64.toNat_lt_size
  listenPort := overridden_number (fun _ => UInt16.ofNat_toNat)
    (fun _ => UInt16.toNat_ofNat_of_lt') UInt16.toNat_lt_size
  resolved := by
    intro hknown
    rw [resolved_override_of_known hknown]
    exact overridden_of_iff fun _ _ => Network.ofName?_eq_some_iff
  effectivePort := by
    intro hknown hzero
    rw [Settings.effectivePort, if_pos hzero, resolved_override_of_known hknown]
    exact (overridden_of_iff fun _ _ => Network.ofName?_eq_some_iff).map Network.port
  explicitPort := by
    intro hport
    rw [Settings.effectivePort, if_neg hport]
  unknown := by
    intro name hset hunknown
    have hnetwork : (settings.override lookup?).network = name := by
      rw [override, hset, Option.getD_some]
    exact resolved_of_unknown (hnetwork ▸ hunknown)

/-- A timeout that cannot be read is left, where a network and a port are overridden. -/
example :
    let settings := initial.override fun name =>
      [("BTC_WIRE_NETWORK", "signet"), ("BTC_WIRE_LISTEN_PORT", "19000"),
        ("BTC_WIRE_CONNECT_TIMEOUT_MS", "not-a-number")].lookup name
    settings.resolved = .signet ∧ settings.effectivePort = 19000 ∧
      settings.connectTimeout = 10000 := by
  decide

/-- The lookup that finds one variable. -/
def onlyVariable (name value : String) (other : String) : Option String :=
  if other = name then some value else none

/-- A file asks for the test network of regressions, and the variable names no network at all: the
settings resolve to the main network and listen on its port. -/
theorem not_overridden_moonnet :
    let settings : Settings := { initial with network := "regtest" }
    let lookup? := onlyVariable "BTC_WIRE_NETWORK" "moonnet"
    (∀ network : Network, "moonnet" ∉ network.names) ∧
      settings.resolved = .regtest ∧ settings.effectivePort = 18444 ∧
      (settings.override lookup?).resolved = .main ∧
      (settings.override lookup?).effectivePort = 8333 ∧
      ¬ Overridden (lookup? "BTC_WIRE_NETWORK") (fun name network => name ∈ network.names)
        settings.resolved (settings.override lookup?).resolved := by
  intro settings lookup?
  have hunknown : ∀ network : Network, "moonnet" ∉ network.names := by
    intro network
    cases network <;> decide
  have hbefore : settings.resolved = .regtest := by rfl
  have hafter : (settings.override lookup?).resolved = .main := by rfl
  refine ⟨hunknown, hbefore, by rfl, hafter, by rfl, ?_⟩
  intro h
  have hset : lookup? "BTC_WIRE_NETWORK" = some "moonnet" := by rfl
  have hsame : (settings.override lookup?).resolved = settings.resolved := by
    apply h.ignored
    intro name hname network hmem
    obtain rfl : "moonnet" = name := Option.some.inj (hset.symm.trans hname)
    exact hunknown network hmem
  rw [hbefore, hafter] at hsame
  cases hsame

end Settings

end PeerProtocol
