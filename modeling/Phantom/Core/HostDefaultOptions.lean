import Mathlib.Data.Finset.Basic
import Mathlib.Tactic
import Std.Data.TreeMap

/-! Where the options of a host come from: its own section of the configuration file, the command line,
the file's section of defaults for all hosts, and the defaults that are built in. -/
namespace Phantom

inductive LogLevel where
  | error | warning | info | debug | trace
  deriving DecidableEq, Repr

inductive LogInfoFlag where
  | node | socket | ram
  deriving DecidableEq, Repr

inductive TimePrefixUpper where
  | sec | min | hour
  deriving DecidableEq, Repr

/-- `units::Time<TimePrefixUpper>`. -/
structure UnitTime where
  value : UInt64
  unit : TimePrefixUpper
  deriving DecidableEq, Repr

/-- The fields of a struct, each in the form that `F` gives it. -/
structure HostFields (F : Type → Type) where
  logLevel : F LogLevel
  heartbeatLogLevel : F LogLevel
  heartbeatLogInfo : F (Finset LogInfoFlag)
  heartbeatInterval : F UnitTime
  pcapDirectory : F String
  ipAddressHint : F String
  countryCodeHint : F String
  cityCodeHint : F String

/-- The names of the fields. -/
inductive HostField where
  | logLevel
  | heartbeatLogLevel
  | heartbeatLogInfo
  | heartbeatInterval
  | pcapDirectory
  | ipAddressHint
  | countryCodeHint
  | cityCodeHint
  deriving DecidableEq, Repr

namespace HostField

abbrev Value : HostField → Type
  | logLevel | heartbeatLogLevel => LogLevel
  | heartbeatLogInfo => Finset LogInfoFlag
  | heartbeatInterval => UnitTime
  | pcapDirectory | ipAddressHint | countryCodeHint | cityCodeHint => String

end HostField

def HostFields.get {F : Type → Type} (o : HostFields F) : (f : HostField) → F f.Value
  | .logLevel => o.logLevel
  | .heartbeatLogLevel => o.heartbeatLogLevel
  | .heartbeatLogInfo => o.heartbeatLogInfo
  | .heartbeatInterval => o.heartbeatInterval
  | .pcapDirectory => o.pcapDirectory
  | .ipAddressHint => o.ipAddressHint
  | .countryCodeHint => o.countryCodeHint
  | .cityCodeHint => o.cityCodeHint

/-- The derived `Merge`. -/
class Merge (α : Type) where
  merge : α → α → α

/-- A `Some` on the left is kept. -/
instance (α : Type) : Merge (Option α) where
  merge a b := match a with
    | some x => some x
    | none => b

abbrev HostDefaultOptions := HostFields Option

namespace HostDefaultOptions

instance : Merge HostDefaultOptions where
  merge a b :=
    { logLevel := Merge.merge a.logLevel b.logLevel
      heartbeatLogLevel := Merge.merge a.heartbeatLogLevel b.heartbeatLogLevel
      heartbeatLogInfo := Merge.merge a.heartbeatLogInfo b.heartbeatLogInfo
      heartbeatInterval := Merge.merge a.heartbeatInterval b.heartbeatInterval
      pcapDirectory := Merge.merge a.pcapDirectory b.pcapDirectory
      ipAddressHint := Merge.merge a.ipAddressHint b.ipAddressHint
      countryCodeHint := Merge.merge a.countryCodeHint b.countryCodeHint
      cityCodeHint := Merge.merge a.cityCodeHint b.cityCodeHint }

def newEmpty : HostDefaultOptions :=
  { logLevel := none
    heartbeatLogLevel := none
    heartbeatLogInfo := none
    heartbeatInterval := none
    pcapDirectory := none
    ipAddressHint := none
    countryCodeHint := none
    cityCodeHint := none }

/-- `Default::default`. -/
def default : HostDefaultOptions :=
  { logLevel := none
    heartbeatLogLevel := some .info
    heartbeatLogInfo := some {.node}
    heartbeatInterval := some ⟨1,.sec⟩
    pcapDirectory := none
    ipAddressHint := none
    countryCodeHint := none
    cityCodeHint := none }

end HostDefaultOptions

def withDefaults {α : Type} [Merge α] (self defaults : α) : α := Merge.merge self defaults

/-- What a mapping of the file holds for a field. -/
inductive YamlField (α : Type) where
  | missing
  | null
  | value (x : α)
  deriving DecidableEq, Repr

namespace YamlField

variable {α : Type}

/-- Deserialization of a field of a struct with default `d`; a null is `None`. -/
def deserialize (d : Option α) : YamlField α → Option α
  | missing => d
  | null => none
  | value x => some x

/-- What the user specified. -/
def specified : YamlField α → Option α
  | value x => some x
  | _ => none

end YamlField

/-- A section of the file with options of hosts. -/
abbrev HostSection := HostFields YamlField

/-- Deserialization under `serde(default)`: missing fields come from `Default`. -/
def HostSection.deserialize (s : HostSection) : HostDefaultOptions :=
  { logLevel := s.logLevel.deserialize HostDefaultOptions.default.logLevel
    heartbeatLogLevel := s.heartbeatLogLevel.deserialize HostDefaultOptions.default.heartbeatLogLevel
    heartbeatLogInfo := s.heartbeatLogInfo.deserialize HostDefaultOptions.default.heartbeatLogInfo
    heartbeatInterval := s.heartbeatInterval.deserialize HostDefaultOptions.default.heartbeatInterval
    pcapDirectory := s.pcapDirectory.deserialize HostDefaultOptions.default.pcapDirectory
    ipAddressHint := s.ipAddressHint.deserialize HostDefaultOptions.default.ipAddressHint
    countryCodeHint := s.countryCodeHint.deserialize HostDefaultOptions.default.countryCodeHint
    cityCodeHint := s.cityCodeHint.deserialize HostDefaultOptions.default.cityCodeHint }

/-- A host of the file. `P` is everything else about it. -/
structure HostEntry (P : Type) where
  rest : P
  options : Option HostSection

/-- `HostOptions`. -/
structure HostOptions (P : Type) where
  rest : P
  options : HostDefaultOptions

/-- The missing section of a host is `new_empty`. -/
def HostEntry.deserialize {P : Type} (e : HostEntry P) : HostOptions P :=
  ⟨e.rest,match e.options with
    | none => HostDefaultOptions.newEmpty
    | some s => s.deserialize⟩

section

variable {G N E P : Type}

/-- What is written in the file. -/
structure ConfigFile (G N E P : Type) where
  general : G
  network : N
  hostDefaults : Option HostSection
  experimental : E
  hosts : Std.TreeMap String (HostEntry P)

structure ConfigFileOptions (G N E P : Type) where
  general : G
  network : N
  hostDefaults : HostDefaultOptions
  experimental : E
  hosts : Std.TreeMap String (HostOptions P)

/-- The missing section of defaults is `Default`. -/
def ConfigFile.deserialize (c : ConfigFile G N E P) : ConfigFileOptions G N E P :=
  { general := c.general
    network := c.network
    hostDefaults := match c.hostDefaults with
      | none => HostDefaultOptions.default
      | some s => s.deserialize
    experimental := c.experimental
    hosts := c.hosts.map fun _ e ↦ e.deserialize }

structure CliOptions (G N E : Type) where
  general : G
  network : N
  hostDefaults : HostDefaultOptions
  experimental : E

structure ConfigOptions (G N E P : Type) where
  general : G
  network : N
  experimental : E
  hosts : Std.TreeMap String (HostOptions P)

variable [Merge G] [Merge N] [Merge E]

def ConfigOptions.new (configFile : ConfigFileOptions G N E P) (options : CliOptions G N E) :
    ConfigOptions G N E P :=
  let hostDefaults := withDefaults options.hostDefaults configFile.hostDefaults
  { general := withDefaults options.general configFile.general
    network := withDefaults options.network configFile.network
    experimental := withDefaults options.experimental configFile.experimental
    hosts := configFile.hosts.map fun _ host ↦ {host with options := withDefaults host.options hostDefaults} }

end

lemma withDefaults_option {α : Type} (a b : Option α) : withDefaults a b=a.or b := by
  cases a <;> rfl

namespace HostDefaultOptions

lemma get_withDefaults (a b : HostDefaultOptions) (f : HostField) :
    (withDefaults a b).get f=(a.get f).or (b.get f) := by
  rw [← withDefaults_option]
  cases f <;> rfl

@[simp] lemma get_newEmpty (f : HostField) : newEmpty.get f=none := by
  cases f <;> rfl

end HostDefaultOptions

lemma HostSection.get_deserialize (s : HostSection) (f : HostField) :
    s.deserialize.get f=(s.get f).deserialize (HostDefaultOptions.default.get f) := by
  cases f <;> rfl

/-- What a section of the file holds for a field; the section may be absent. -/
def entry (s : Option HostSection) (f : HostField) : Option (YamlField f.Value) := s.map (·.get f)

/-- What the user specified in a section of the file. -/
def specified (s : Option HostSection) (f : HostField) : Option f.Value := (entry s f).bind YamlField.specified

/-- The first one that is specified among a host's own section, the command line, the file's defaults
and the built-in default. -/
def firstSpecified (own : Option HostSection) (cli : HostDefaultOptions) (defaults : Option HostSection)
    (f : HostField) : Option f.Value :=
  (specified own f).or ((cli.get f).or ((specified defaults f).or (HostDefaultOptions.default.get f)))

/-- Where a host's section leaves out a field that has a built-in default, command line and file specify
this default or nothing. -/
def LeftOut (own : Option HostSection) (cli : HostDefaultOptions) (defaults : Option HostSection)
    (f : HostField) : Prop :=
  entry own f=some .missing → ∀ b ∈ HostDefaultOptions.default.get f,
    ∀ v ∈ (cli.get f).or (specified defaults f), v=b

/-- Where the built-in default is all that is left, the file's defaults do not put a null in its place. -/
def NotNulled (own : Option HostSection) (cli : HostDefaultOptions) (defaults : Option HostSection)
    (f : HostField) : Prop :=
  entry own f ≠ some .missing → specified own f=none → cli.get f=none → entry defaults f=some .null →
    HostDefaultOptions.default.get f=none

section

variable {α : Type} (own defaults : Option (YamlField α)) (cli builtin : Option α)

lemma field_iff :
    (own.elim none (·.deserialize builtin)).or (cli.or (defaults.elim builtin (·.deserialize builtin)))=
      (own.bind YamlField.specified).or (cli.or ((defaults.bind YamlField.specified).or builtin)) ↔
    (own=some .missing → ∀ b ∈ builtin, ∀ v ∈ cli.or (defaults.bind YamlField.specified), v=b) ∧
      (own ≠ some .missing → own.bind YamlField.specified=none → cli=none → defaults=some .null →
        builtin=none) := by
  rcases own with - | - | - | x
  all_goals rcases cli with - | c
  all_goals rcases defaults with - | - | - | d
  all_goals rcases builtin with - | b
  all_goals simp [YamlField.deserialize,YamlField.specified,eq_comm]

end

section

variable {G N E P : Type}

lemma ConfigFile.get_hostDefaults (file : ConfigFile G N E P) (f : HostField) :
    file.deserialize.hostDefaults.get f=
      (entry file.hostDefaults f).elim (HostDefaultOptions.default.get f)
        (·.deserialize (HostDefaultOptions.default.get f)) := by
  cases h : file.hostDefaults with
  | none => simp [deserialize,entry,h]
  | some s => simp [deserialize,entry,h,HostSection.get_deserialize]

lemma HostEntry.get_options (host : HostEntry P) (f : HostField) :
    host.deserialize.options.get f=
      (entry host.options f).elim none (·.deserialize (HostDefaultOptions.default.get f)) := by
  cases h : host.options with
  | none => simp [deserialize,entry,h]
  | some s => simp [deserialize,entry,h,HostSection.get_deserialize]

variable [Merge G] [Merge N] [Merge E]

lemma ConfigOptions.getElem?_hosts (file : ConfigFile G N E P) (cli : CliOptions G N E) (name : String) :
    (ConfigOptions.new file.deserialize cli).hosts[name]?=file.hosts[name]?.map fun host ↦
      ⟨host.deserialize.rest,withDefaults host.deserialize.options
        (withDefaults cli.hostDefaults file.deserialize.hostDefaults)⟩ := by
  simp only [new,ConfigFile.deserialize,Std.TreeMap.getElem?_map,Option.map_map]
  rfl

/-- Whatever the file and the command line, a field of a host has the value that is specified first
exactly if the two conditions hold of it. -/
theorem host_option_precedence_iff (file : ConfigFile G N E P) (cli : CliOptions G N E) {name : String}
    {host : HostEntry P} (hhost : file.hosts[name]?=some host) (f : HostField) :
    (∃ host', (ConfigOptions.new file.deserialize cli).hosts[name]?=some host' ∧
      host'.options.get f=firstSpecified host.options cli.hostDefaults file.hostDefaults f) ↔
    LeftOut host.options cli.hostDefaults file.hostDefaults f ∧
      NotNulled host.options cli.hostDefaults file.hostDefaults f := by
  rw [ConfigOptions.getElem?_hosts,hhost]
  simp only [Option.map_some,Option.some.injEq,exists_eq_left',HostDefaultOptions.get_withDefaults,
    HostEntry.get_options,ConfigFile.get_hostDefaults]
  exact field_iff _ _ _ _

end

/-- A section without any field. -/
def HostSection.empty : HostSection :=
  { logLevel := .missing
    heartbeatLogLevel := .missing
    heartbeatLogInfo := .missing
    heartbeatInterval := .missing
    pcapDirectory := .missing
    ipAddressHint := .missing
    countryCodeHint := .missing
    cityCodeHint := .missing }

/-- A file with one host. -/
def ConfigFile.single (hostDefaults options : Option HostSection) :
    ConfigFile (Option Unit) (Option Unit) (Option Unit) Unit :=
  ⟨none,none,hostDefaults,none,(∅ : Std.TreeMap String (HostEntry Unit)).insert "server" ⟨(),options⟩⟩

lemma ConfigFile.hosts_single (hostDefaults options : Option HostSection) :
    (ConfigFile.single hostDefaults options).hosts["server"]?=some ⟨(),options⟩ :=
  Std.TreeMap.getElem?_insert_self

/-- The level of the command line reaches a host whose section does not set one. -/
theorem host_option_precedence_level :
    ∃ host', (ConfigOptions.new
        (ConfigFile.single none (some {HostSection.empty with pcapDirectory := .value "pcap"})).deserialize
        ⟨none,none,{HostDefaultOptions.newEmpty with logLevel := some .debug},none⟩).hosts["server"]?=some host' ∧
      host'.options.get .logLevel=firstSpecified (some {HostSection.empty with pcapDirectory := .value "pcap"})
        {HostDefaultOptions.newEmpty with logLevel := some .debug} none .logLevel :=
  (host_option_precedence_iff _ _ (ConfigFile.hosts_single _ _) .logLevel).mpr
    ⟨fun _ _ h ↦ (nomatch h),fun h ↦ absurd rfl h⟩

/-- The interval of the command line does not reach a host whose section sets only its level. -/
theorem host_option_precedence_interval :
    ¬ ∃ host', (ConfigOptions.new
        (ConfigFile.single none (some {HostSection.empty with logLevel := .value .debug})).deserialize
        ⟨none,none,{HostDefaultOptions.newEmpty with heartbeatInterval := some ⟨5,.sec⟩},none⟩).hosts["server"]?=
          some host' ∧
      host'.options.get .heartbeatInterval=
        firstSpecified (some {HostSection.empty with logLevel := .value .debug})
          {HostDefaultOptions.newEmpty with heartbeatInterval := some ⟨5,.sec⟩} none .heartbeatInterval := by
  rintro ⟨host',hhost,hvalue⟩
  rw [ConfigOptions.getElem?_hosts,ConfigFile.hosts_single] at hhost
  obtain rfl := Option.some.inj hhost
  exact absurd hvalue (by decide)

end Phantom
