import EntityDiagram.Render.Renderer

/-!
# Settings

A setting gives one option a value by its name. Options are written down as lists of settings, and
the options of a renderer can be changed by a setting. A setting that the options do not have, or
with a value of another sort, changes nothing and is reported.
-/

namespace EntityDiagram.Render

open Number (Measure)

/-- The value of an option. -/
inductive SettingValue where
  | flag (value : Bool)
  | text (value : String)
  | measure (value : Measure)
  /-- No value, for an option that can do without. -/
  | missing
  deriving DecidableEq, Repr

/-- An option by name, and its value. -/
structure Setting where
  name : String
  value : SettingValue
  deriving DecidableEq, Repr

/-- The options of Mermaid text after a setting. -/
def MermaidOptions.set? (options : MermaidOptions) (setting : Setting) : Option MermaidOptions :=
  match setting.name, setting.value with
  | "show_properties", .flag value => some { options with showProperties := value }
  | "show_comments", .flag value => some { options with showComments := value }
  | "show_key_types", .flag value => some { options with showKeyTypes := value }
  | "show_attributes", .flag value => some { options with showAttributes := value }
  | _, _ => none

/-- The options of D2 text after a setting. -/
def D2Options.set? (options : D2Options) (setting : Setting) : Option D2Options :=
  match setting.name, setting.value with
  | "direction", .text value => some { options with direction := value }
  | "shape", .text value => some { options with shape := value }
  | "show_properties", .flag value => some { options with showProperties := value }
  | "show_constraints", .flag value => some { options with showConstraints := value }
  | _, _ => none

/-- The options of a Draw.io document after a setting. -/
def DrawioOptions.set? (options : DrawioOptions) (setting : Setting) : Option DrawioOptions :=
  match setting.name, setting.value with
  | "entity_width", .measure value => some { options with entityWidth := value }
  | "row_height", .measure value => some { options with rowHeight := value }
  | "horizontal_spacing", .measure value => some { options with horizontalSpacing := value }
  | "vertical_spacing", .measure value => some { options with verticalSpacing := value }
  | "entities_per_row", .measure value => some { options with entitiesPerRow := value }
  | "show_key_types", .flag value => some { options with showKeyTypes := value }
  | "layout", .text value => some { options with layout := value }
  | "modified", .text value => some { options with modified := some ↑value }
  | "modified", .missing => some { options with modified := none }
  | _, _ => none

/-- Options after a setting; nothing where they do not have it. -/
def Options.set? (options : Options) (setting : Setting) : Option Options :=
  match options with
  | mermaid options => (options.set? setting).map mermaid
  | d2 options => (options.set? setting).map d2
  | drawio options => (options.set? setting).map drawio

/-- The options of a format with a list of settings, or the first setting that they do not have. -/
def Options.ofSettings (format : Format) (settings : List Setting) : Except Setting Options :=
  settings.foldlM (fun (options : Options) setting =>
    match options.set? setting with
    | some changed => .ok changed
    | none => .error setting) format.defaults

end EntityDiagram.Render
