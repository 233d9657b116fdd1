import PropCatalog.Metadata.Attach
import PropCatalog.Source.Layout

/-!
# Attaching metadata to source text

Read a text, attach metadata to the components of its module, and write the module again.
-/

namespace PropCatalog.Source

/-- Attach metadata to the components of a module, keeping its comments. -/
def Document.attach (d : Document) (options : Options) : Report × Document :=
  let (report, contents) := d.contents.attach options
  (report, { d with contents })

/-- The report on a source text and the text with metadata, unless the text cannot be read. -/
def attach? (dialect : Dialect) (text : String) (options : Options) : Option (Report × String) :=
  (Document.read? dialect text).map fun d =>
    let (report, result) := d.attach options
    (report, result.render)

/-- What is said of a text that cannot be read. -/
def unreadableMessage (p : Path) : String := "Failed to parse " ++ p.text

end PropCatalog.Source
