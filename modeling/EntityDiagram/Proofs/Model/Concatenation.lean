import EntityDiagram.Model.Diagram
import EntityDiagram.Proofs.Declaration.Concatenation
import EntityDiagram.Proofs.Source.Tiling

/-!
# Texts one after the other

Two texts with a line break between them are read as if they were two files, where the first one
ends in a way that nothing behind it can continue. The diagram of the whole has the entities of both
and the relationships that they have together, and only the names of their files differ.
-/

namespace EntityDiagram.Model

open Declaration (EndsClosed SourceFile Statement)
open Source (Token TokenStream)

/-- The entity without the name of its file. -/
def Entity.unplaced (entity : Entity) : Entity :=
  { entity with file := none }

theorem ofStatement?_unplaced
    (file file' : String) (statement : Statement) :
    (Entity.ofStatement? file statement).map Entity.unplaced =
      (Entity.ofStatement? file' statement).map Entity.unplaced := by
  cases statement with
  | interface | other => rfl
  | «alias» declaration =>
    simp only [Entity.ofStatement?, Entity.ofAlias?]
    split <;> rfl

/-- But for the name of their file, entities depend on the statements alone. -/
theorem listOfFile_map_unplaced
    (name name' : String) (statements : List Statement) :
    (Entity.listOfFile ⟨name, statements⟩).map Entity.unplaced =
      (Entity.listOfFile ⟨name', statements⟩).map Entity.unplaced := by
  simp only [Entity.listOfFile, List.map_filterMap, ofStatement?_unplaced name name']

theorem listOfFile_append
    (name name' whole : String) (statements statements' : List Statement) :
    (Entity.listOfFile ⟨whole, statements ++ statements'⟩).map Entity.unplaced =
      (Entity.listOfFile ⟨name, statements⟩ ++ Entity.listOfFile ⟨name', statements'⟩).map
        Entity.unplaced := by
  have hwhole : Entity.listOfFile ⟨whole, statements ++ statements'⟩ =
      Entity.listOfFile ⟨whole, statements⟩ ++ Entity.listOfFile ⟨whole, statements'⟩ :=
    List.filterMap_append
  rw [hwhole, List.map_append, List.map_append, listOfFile_map_unplaced whole name,
    listOfFile_map_unplaced whole name']

/-- Files play no part in relationships. -/
theorem derive_map_unplaced
    (entities : List Entity) :
    Relationship.derive (entities.map Entity.unplaced) = Relationship.derive entities := by
  have hnames : (entities.map Entity.unplaced).map Entity.name = entities.map Entity.name := by
    rw [List.map_map]
    rfl
  rw [Relationship.derive, hnames, List.flatMap_map]
  rfl

/-- Reading texts one after the other, as one text, makes no difference but for the names of the
files: the statements are those of both texts, and the diagram has the entities of both, in order,
and the relationships that they have together. -/
theorem ofText_concatenation
    {name name' text text' : String} {stream : TokenStream} {file file' : SourceFile}
    (hstream : TokenStream.ofText text = .ok stream)
    (hfile : SourceFile.ofText name text = .ok file)
    (hfile' : SourceFile.ofText name' text' = .ok file') (hdocs : stream.ending.docs = [])
    (hclosed : stream.tokens = [] ∨ EndsClosed stream.tokens) (whole : String) :
    SourceFile.ofText whole (text ++ "\n" ++ text') =
        .ok ⟨whole, file.statements ++ file'.statements⟩ ∧
      ∃ diagram, Diagram.ofText whole (text ++ "\n" ++ text') = .ok diagram ∧
        diagram.entities.map Entity.unplaced =
          (Diagram.ofFiles [file, file']).entities.map Entity.unplaced ∧
        diagram.relationships = (Diagram.ofFiles [file, file']).relationships := by
  have hwhole := SourceFile.ofText_append hstream hfile hfile' hdocs hclosed whole
  have hentities := listOfFile_append file.name file'.name whole file.statements file'.statements
  refine ⟨hwhole, Diagram.ofFiles [⟨whole, file.statements ++ file'.statements⟩], ?_, ?_, ?_⟩
  · rw [Diagram.ofText, hwhole]
    rfl
  · simpa [Diagram.ofFiles] using hentities
  · have hderive := congrArg Relationship.derive hentities
    rw [derive_map_unplaced, derive_map_unplaced] at hderive
    simpa [Diagram.ofFiles] using hderive

/-! ### An interface, and an alias of it in a second text -/

def userText : String :=
  "interface User\x7b\x7d"

def userTokens : List Token :=
  [⟨.ident "interface", ⟨⟨1, 1⟩, false, []⟩⟩, ⟨.ident "User", ⟨⟨1, 11⟩, false, []⟩⟩,
    ⟨.punct "\x7b", ⟨⟨1, 15⟩, false, []⟩⟩, ⟨.punct "\x7d", ⟨⟨1, 16⟩, false, []⟩⟩]

def ownerText : String :=
  "type Owner=User"

def ownerTokens : List Token :=
  [⟨.ident "type", ⟨⟨1, 1⟩, false, []⟩⟩, ⟨.ident "Owner", ⟨⟨1, 6⟩, false, []⟩⟩,
    ⟨.punct "=", ⟨⟨1, 11⟩, false, []⟩⟩, ⟨.ident "User", ⟨⟨1, 12⟩, false, []⟩⟩]

theorem ofText_userText :
    TokenStream.ofText userText = .ok ⟨userTokens, ⟨⟨1, 17⟩, false, []⟩⟩ := by
  have hkeyword : Source.readGap ⟨.start, false, []⟩ userText.toList =
      .ok (⟨⟨1, 1⟩, false, []⟩, "interface User\x7b\x7d".toList) := by cbv
  have hname : Source.readGap ⟨⟨1, 10⟩, false, []⟩ " User\x7b\x7d".toList =
      .ok (⟨⟨1, 11⟩, false, []⟩, "User\x7b\x7d".toList) := by cbv
  have hopen : Source.readGap ⟨⟨1, 15⟩, false, []⟩ "\x7b\x7d".toList =
      .ok (⟨⟨1, 15⟩, false, []⟩, "\x7b\x7d".toList) := by cbv
  have hclose : Source.readGap ⟨⟨1, 16⟩, false, []⟩ "\x7d".toList =
      .ok (⟨⟨1, 16⟩, false, []⟩, "\x7d".toList) := by cbv
  have hending : Source.readGap ⟨⟨1, 17⟩, false, []⟩ [] = .ok (⟨⟨1, 17⟩, false, []⟩, []) := by cbv
  exact Source.readTokens_token hkeyword rfl (Source.readTokens_token hname rfl
    (Source.readTokens_token hopen rfl (Source.readTokens_token hclose rfl
      (Source.readTokens_ending hending))))

theorem ofText_ownerText :
    TokenStream.ofText ownerText = .ok ⟨ownerTokens, ⟨⟨1, 16⟩, false, []⟩⟩ := by
  have hkeyword : Source.readGap ⟨.start, false, []⟩ ownerText.toList =
      .ok (⟨⟨1, 1⟩, false, []⟩, "type Owner=User".toList) := by cbv
  have hname : Source.readGap ⟨⟨1, 5⟩, false, []⟩ " Owner=User".toList =
      .ok (⟨⟨1, 6⟩, false, []⟩, "Owner=User".toList) := by cbv
  have hequals : Source.readGap ⟨⟨1, 11⟩, false, []⟩ "=User".toList =
      .ok (⟨⟨1, 11⟩, false, []⟩, "=User".toList) := by cbv
  have haliased : Source.readGap ⟨⟨1, 12⟩, false, []⟩ "User".toList =
      .ok (⟨⟨1, 12⟩, false, []⟩, "User".toList) := by cbv
  have hending : Source.readGap ⟨⟨1, 16⟩, false, []⟩ [] = .ok (⟨⟨1, 16⟩, false, []⟩, []) := by cbv
  exact Source.readTokens_token hkeyword rfl (Source.readTokens_token hname rfl
    (Source.readTokens_token hequals rfl (Source.readTokens_token haliased rfl
      (Source.readTokens_ending hending))))

def userFile : SourceFile :=
  ⟨"user.ts", [.interface { name := "User" }]⟩

def ownerFile : SourceFile :=
  ⟨"owner.ts", [.alias { name := "Owner", type := .reference "User" [] }]⟩

theorem ofText_userText_ownerText :
    SourceFile.ofText "both.ts" (userText ++ "\n" ++ ownerText) =
        .ok ⟨"both.ts", userFile.statements ++ ownerFile.statements⟩ ∧
      ∃ diagram, Diagram.ofText "both.ts" (userText ++ "\n" ++ ownerText) = .ok diagram ∧
        diagram.entities.map Entity.unplaced =
          (Diagram.ofFiles [userFile, ownerFile]).entities.map Entity.unplaced ∧
        diagram.relationships = (Diagram.ofFiles [userFile, ownerFile]).relationships := by
  have huser : SourceFile.ofText "user.ts" userText = .ok userFile := by
    rw [SourceFile.ofText_eq ofText_userText]
    rfl
  have howner : SourceFile.ofText "owner.ts" ownerText = .ok ownerFile := by
    rw [SourceFile.ofText_eq ofText_ownerText]
    rfl
  have hfirst : Statement.first userTokens = .ok (.interface { name := "User" }, []) := rfl
  exact ofText_concatenation ofText_userText huser howner rfl
    (.inr (.closing rfl hfirst .interface)) "both.ts"

end EntityDiagram.Model
