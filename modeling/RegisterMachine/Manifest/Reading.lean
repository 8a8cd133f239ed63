import RegisterMachine.Manifest.Basic
import RegisterMachine.Toml.Table
import RegisterMachine.Yaml.Meaning
import RegisterMachine.Yaml.Node

/-!
# Reading manifests

A manifest has five sections with a few settings each, whatever the form of its text. In TOML a key
may differ from a setting's name in the case of its letters, and values have to be of the setting's
type. In YAML names are exact, nothing may be said twice, any scalar is a text, and a missing value
leaves a setting as it is.
-/

namespace RegisterMachine.Manifest

/-- The type of a setting, with how its value changes a manifest. -/
inductive Setting where
  | text (put : Bytes → Manifest → Manifest)
  | number (put : Int → Manifest → Manifest)
  | truth (put : Bool → Manifest → Manifest)
  | texts (put : List Bytes → Manifest → Manifest)

/-- The sections of a manifest and their settings. -/
def sections : List (String × List (String × Setting)) := [
  ("project", [
    ("name", .text fun v m => { m with name := v }),
    ("version", .text fun v m => { m with version := v })]),
  ("vm", [
    ("arch", .text fun v m => { m with arch := v }),
    ("max-stack", .number fun v m => { m with maxStack := v }),
    ("trace", .truth fun v m => { m with trace := v })]),
  ("debugger", [
    ("output", .text fun v m => { m with output := v }),
    ("color", .text fun v m => { m with color := v })]),
  ("journal", [
    ("path", .text fun v m => { m with journalPath := v }),
    ("enabled", .truth fun v m => { m with journalEnabled := v })]),
  ("natives", [
    ("enabled", .texts fun v m => { m with natives := v })])]

/-! ## TOML -/

/-- A text with its letters in lower case, for comparison; the long s and the Kelvin sign count as
the letters they look like. -/
def foldCase (s : Bytes) : Bytes :=
  Text.ofRunes ((Text.runes s).map fun c =>
    if c = 0x17F then 115 else if c = 0x212A then 107 else if 65 ≤ c ∧ c ≤ 90 then c + 32 else c)

/-- Finds what a key names, exactly or up to the case of letters. -/
def findFolded? {α : Type} (items : List (String × α)) (key : Bytes) : Option α :=
  match items.find? fun i => utf8 i.1 == key with
  | some i => some i.2
  | none => (items.find? fun i => foldCase (utf8 i.1) == foldCase key).map (·.2)

/-- Gives a setting a TOML value. -/
def Setting.putToml (s : Setting) (n : Toml.Node) (m : Manifest) : Option Manifest :=
  match s, n with
  | .text put, .leaf (.string v) => some (put v m)
  | .number put, .leaf (.integer v) => some (put v m)
  | .truth put, .leaf (.bool v) => some (put v m)
  | .texts put, .leaf (.array vs) =>
    (vs.mapM fun (v : Toml.Value) => match v with
      | .string v => some v
      | _ => none).map (put · m)
  | _, _ => none

/-- The settings that a TOML text gives. -/
def ofToml? (text : Bytes) : Option Manifest := do
  let root ← Toml.table? text
  root.foldlM (fun m (key, n) =>
    match findFolded? sections key with
    | none => some m
    | some settings =>
      match n with
      | .table es =>
        es.foldlM (fun m (key, n) =>
          match findFolded? settings key with
          | none => some m
          | some s => s.putToml n m) m
      | _ => none) {}

/-! ## YAML -/

/-- How many nodes have been read, and how many of them inside nodes that are referred to. -/
structure Tally where
  nodes : Nat := 0
  referred : Nat := 0

/-- Reading that counts nodes and may fail. -/
abbrev Counted (α : Type) := StateT Tally Option α

/-- Whether most of what is read comes from references. Up to 400000 nodes, 99 of 100 may; from
there to 4000000 nodes the share falls to 10 of 100. -/
def Tally.isExcessive (t : Tally) : Bool :=
  let low := 400000
  let high := 4000000
  let range := high - low
  let share := 99 * range - 89 * (min t.nodes high - low)
  100 < t.referred && 1000 < t.nodes && share * t.nodes < 100 * range * t.referred

/-- Counts a node. -/
def count (referred : Bool) : Counted Unit := do
  let t ← get
  let t : Tally := ⟨t.nodes + 1, if referred then t.referred + 1 else t.referred⟩
  if t.isExcessive then failure
  set t

/-- A document that is being read. -/
structure Scope where
  anchored : List (Nat × Yaml.Node)
  /-- The references that are being followed. -/
  active : List Nat := []

/-- The node that a node stands for, and the scope inside it. A reference must not lead to
itself. -/
def Scope.visit (s : Scope) (n : Yaml.Node) : Counted (Yaml.Node × Scope) := do
  count (!s.active.isEmpty)
  match n with
  | .reference _ number target =>
    if s.active.contains number then failure
    count true
    let some n := s.anchored.lookup target | failure
    return (n, { s with active := number :: s.active })
  | n => return (n, s)

/-- The spellings of truth values as texts. -/
def truthOfText? (s : Bytes) : Option Bool :=
  if (["y", "Y", "yes", "Yes", "YES", "on", "On", "ON"].map utf8).contains s then some true
  else if (["n", "N", "no", "No", "NO", "off", "Off", "OFF"].map utf8).contains s then some false
  else none

/-- The whole part of a double as a signed 64-bit number; what is too small, and two to the power of
63, become the least number. -/
def wholePart? (bits : Nat) : Option Int :=
  match Number.double.decode bits with
  | .nan => none
  | .infinite negative => if negative then some (-2 ^ (63 : Nat)) else none
  | .finite negative m q =>
    let magnitude : Nat := if 0 ≤ q then m * 2 ^ q.toNat else m / 2 ^ (-q).toNat
    let i : Int := if negative then -(magnitude : Int) else magnitude
    if 2 ^ (63 : Nat) < i then none
    else if i = 2 ^ (63 : Nat) ∨ i < -2 ^ (63 : Nat) then some (-2 ^ (63 : Nat)) else some i

/-- The text of a scalar: what it decodes to, or what is written. -/
def textOf (written : Bytes) : Yaml.Meaning → Bytes
  | .text s => s
  | _ => written

/-- Gives a setting the value of a scalar that means something. -/
def Setting.putMeaning (s : Setting) (written : Bytes) (v : Yaml.Meaning) (m : Manifest) :
    Option Manifest :=
  match s, v with
  | .text put, v => some (put (textOf written v) m)
  | .number put, .whole n => some (put n m)
  | .number put, .float bits => (wholePart? bits).map (put · m)
  | .truth put, .truth b => some (put b m)
  | .truth put, .text t => (truthOfText? t).map (put · m)
  | _, _ => none

/-- The text of an item of a list, `none` within when it means nothing. -/
def itemText (s : Scope) (n : Yaml.Node) : Counted (Option Bytes) := do
  match ← s.visit n with
  | (.scalar tag plain text, _) =>
    match ← Yaml.meaning? tag plain text with
    | .nothing => return none
    | v => return some (textOf text v)
  | _ => failure

/-- Gives a setting a YAML value. What means nothing leaves a setting as it is, but empties a
list. -/
def Setting.putYaml (setting : Setting) (s : Scope) (n : Yaml.Node) (m : Manifest) :
    Counted Manifest := do
  match ← s.visit n with
  | (.scalar tag plain written, _) =>
    let v ← Yaml.meaning? tag plain written
    match v, setting with
    | .nothing, .texts put => return put [] m
    | .nothing, _ => return m
    | v, setting => setting.putMeaning written v m
  | (.sequence items, s) =>
    let .texts put := setting | failure
    return put ((← items.mapM (itemText s)).filterMap id) m
  | _ => failure

/-- Whether two keys count as the same: scalars with one text, references to one name, and any two
sequences or mappings. -/
def sameKey : Yaml.Node → Yaml.Node → Bool
  | .scalar _ _ a, .scalar _ _ b => a == b
  | .reference a _ _, .reference b _ _ => a == b
  | .sequence _, .sequence _ => true
  | .mapping _, .mapping _ => true
  | _, _ => false

/-- Whether a key comes twice. -/
def repeatsKey : List (Yaml.Node × Yaml.Node) → Bool
  | [] => false
  | (k, _) :: rest => rest.any (sameKey k ·.1) || repeatsKey rest

/-- Whether a key asks for the entries of other mappings. -/
def isMerge : Yaml.Node → Bool
  | .scalar none true text => text == utf8 "<<"
  | .scalar (some tag) _ text => text == utf8 "<<" && tag == utf8 "!!merge"
  | _ => false

/-- The name that a key is, `none` within when it means nothing. -/
def keyName (s : Scope) (n : Yaml.Node) : Counted (Option Bytes) := itemText s n

/-- Whether a node is a mapping or refers to one. -/
def Scope.leadsToMapping (s : Scope) : Yaml.Node → Bool
  | .mapping _ => true
  | .reference _ _ target =>
    match s.anchored.lookup target with
    | some (.mapping _) => true
    | _ => false
  | _ => false

/-- The mappings whose entries are asked for. -/
def Scope.mergeSources? (s : Scope) (n : Yaml.Node) : Option (List Yaml.Node) :=
  match n with
  | .sequence ns => if ns.all s.leadsToMapping then some ns else none
  | n => if s.leadsToMapping n then some [n] else none

/-- How far the entries of a mapping have been read. -/
structure Progress where
  manifest : Manifest
  /-- Names that other entries have been read for, while mappings are merged. -/
  merged : Option (List Bytes)
  /-- Names that the mapping itself has had. -/
  done : List Bytes := []
  /-- What the entries of other mappings come from. -/
  source : Option Yaml.Node := none

/-- Reads an entry of a mapping, if its key names something and has not been read for. -/
def readEntry {α : Type} (items : List (String × α))
    (put : α → Scope → Yaml.Node → Manifest → Counted Manifest) (s : Scope) (p : Progress)
    (entry : Yaml.Node × Yaml.Node) : Counted Progress := do
  if isMerge entry.1 then return { p with source := some entry.2 }
  let some name ← keyName s entry.1 | return p
  if (p.merged.getD []).contains name then return p
  let p := { p with merged := p.merged.map (name :: ·) }
  match items.find? fun i => utf8 i.1 == name with
  | none => return p
  | some i =>
    if p.done.contains name then failure
    return { p with manifest := ← put i.2 s entry.2 p.manifest, done := name :: p.done }

/-- Reads the entries of a mapping whose keys name something, and then those of the mappings that it
asks for: its own come first, and of the others the earlier ones. -/
def readEntries {α : Type} (items : List (String × α))
    (put : α → Scope → Yaml.Node → Manifest → Counted Manifest) :
    Nat → Scope → List (Yaml.Node × Yaml.Node) → Option (List Bytes) → Manifest →
    Counted (Manifest × List Bytes)
  | 0, _, _, _, _ => failure
  | fuel + 1, s, entries, merged, m => do
    if repeatsKey entries then failure
    let p ← entries.foldlM (readEntry items put s) { manifest := m, merged }
    match p.source with
    | none => return (p.manifest, p.merged.getD [])
    | some n =>
      let names ← match p.merged with
        | some names => pure names
        | none => pure ((← entries.mapM fun e => keyName s e.1).filterMap id)
      let sources ← s.mergeSources? n
      sources.foldlM (fun (m, names) n => do
        let (n, s) ← s.visit n
        let .mapping entries := n | failure
        readEntries items put fuel s entries (some names) m) (p.manifest, names)

/-- Reads a section: a mapping, or nothing. -/
def readSection (fuel : Nat) (settings : List (String × Setting)) (s : Scope) (n : Yaml.Node)
    (m : Manifest) : Counted Manifest := do
  match ← s.visit n with
  | (.scalar tag plain text, _) =>
    match ← Yaml.meaning? tag plain text with
    | .nothing => return m
    | _ => failure
  | (.mapping entries, s) =>
    return (← readEntries settings Setting.putYaml fuel s entries none m).1
  | _ => failure

/-- The settings that a document gives. -/
def ofDocument (fuel : Nat) (d : Yaml.Document) : Counted Manifest := do
  count false
  let (root, s) ← ({ anchored := d.anchored } : Scope).visit d.root
  match root with
  | .scalar tag plain text =>
    match ← Yaml.meaning? tag plain text with
    | .nothing => return {}
    | _ => failure
  | .mapping entries => return (← readEntries sections (readSection fuel) fuel s entries none {}).1
  | _ => failure

/-- The settings that a YAML text gives. -/
def ofYaml? (text : Bytes) : Option Manifest := do
  match ← Yaml.Document.ofText? text with
  | none => return {}
  | some d =>
    let fuel := (d.references + 1) * (text.length + 2)
    return (← (ofDocument fuel d).run {}).1

end RegisterMachine.Manifest
