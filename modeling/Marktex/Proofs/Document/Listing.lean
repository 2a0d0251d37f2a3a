import Marktex.Document.Listing
import Marktex.Proofs.Text.Integer
import Marktex.Proofs.Text.Quoted
import Marktex.Proofs.Token.Clean
import Marktex.Proofs.Token.Shape
import Marktex.Proofs.Token.Tiling

/-!
# Listings are listed line by line

A listing has one line for each thing that it lists, and no other ones. Every character of a line is printable
(`Token.printable_listed`, `Part.printable_line`): names and numbers are, and all texts of the source stand in
quotes. A text that is made of printable lines comes apart into just these lines (`Text.inLines_ofLines`),
whether it is cut at line feeds or wherever a displayed line may end. `listings_in_lines` says so of the tokens
of a source and of the parts of a document, `Document.parts`.
-/

namespace Marktex

namespace Text

/-- A text consists of some lines, with a line feed behind each of them. They are what the text is cut into at
line feeds, and also what it is cut into wherever a displayed line may end. -/
structure InLines (s : Text) (lines : List Text) : Prop where
  whole : s = ofLines lines
  cut : Text.lines s = lines
  displayed : s.displayedLines = lines

/-- The number of spaces at the front of a line. -/
def indentation (line : Text) : Nat :=
  (line.takeWhile (· == ' ')).length

/-- A name: it is not empty, and it holds printable characters only, but no space. -/
def IsName (s : Text) : Prop :=
  s ≠ [] ∧ ∀ c ∈ s, isPrintable c = true ∧ c ≠ ' '

/-- A text of visible ASCII characters is a name. -/
lemma isName_of_ascii {s : Text} (h : s ≠ [] ∧ s.all isAscii = true ∧ ' ' ∉ s) : s.IsName := by
  obtain ⟨nonempty, ascii, solid⟩ := h
  refine ⟨nonempty, fun c member => ⟨printable_of_ascii ascii c member, ?_⟩⟩
  rintro rfl
  exact solid member

/-- A name is printable. -/
lemma IsName.printable {s : Text} (h : s.IsName) : s.Printable :=
  fun c member => (h.2 c member).1

/-- Printable lines that are written one after the other come apart again. -/
lemma inLines_ofLines {lines : List Text} (h : ∀ line ∈ lines, line.Printable) :
    InLines (ofLines lines) lines := by
  induction lines with
  | nil => exact ⟨rfl, rfl, rfl⟩
  | cons line rest ih =>
    obtain ⟨here, later⟩ := List.forall_mem_cons.1 h
    obtain ⟨-, cut, displayed⟩ := ih later
    have front : ofLines (line :: rest) = line ++ '\n' :: ofLines rest := by simp [ofLines]
    refine ⟨rfl, ?_, ?_⟩
    · rw [front, lines_cons here, cut]
    · rw [front, displayedLines_cons here, displayed]

/-- The spaces before a name are its indentation. -/
lemma indentation_indented {name : Text} (depth : Nat) (h : name.IsName) (rest : Text) :
    indentation (indented depth (name ++ rest)) = 2 * depth := by
  obtain ⟨c, name, rfl⟩ := List.exists_cons_of_ne_nil h.1
  have solid : (c == ' ') = false := beq_false_of_ne (h.2 c List.mem_cons_self).2
  rw [indentation, indented, List.takeWhile_append_of_pos]
  · simp [solid]
  · intro d member
    rw [List.eq_of_mem_replicate member]
    rfl

end Text

/-- All kinds of tokens that have a meaning have names. -/
lemma Kind.isName_name {kind : Kind} (h : ∀ name, kind ≠ .foreign name) : kind.name.IsName := by
  cases kind with
  | styled style => cases style <;> exact Text.isName_of_ascii (by decide)
  | marker marker => cases marker <;> exact Text.isName_of_ascii (by decide)
  | foreign name => exact absurd rfl (h name)
  | _ => exact Text.isName_of_ascii (by decide)

/-- What is written of a number is printable. -/
lemma Text.printable_of_written {n : Int} {s : Text} (h : written n = .ok s) : s.Printable := by
  unfold written at h
  split at h
  case isTrue =>
    cases h
    exact printable_ofInt n
  case isFalse => cases h

/-- A stray value is written with printable characters. -/
lemma Stray.printable_shown {v : Stray} {s : Text} (h : v.shown = .ok s) : s.Printable := by
  cases v with
  | nothing =>
    cases h
    exact (Text.isName_of_ascii (by decide)).printable
  | integer n => exact Text.printable_of_written h
  | boolean b =>
    cases h
    cases b <;> exact (Text.isName_of_ascii (by decide)).printable

/-- The packed value of a token is written with printable characters. -/
lemma Token.printable_listedValue {t : Token} {s : Text} (h : t.listedValue = .ok s) : s.Printable := by
  unfold listedValue at h
  split at h
  case h_1 level text _ =>
    cases number : Text.written level with
    | error reason =>
      rw [number] at h
      cases h
    | ok digits =>
      rw [number] at h
      cases h
      exact Text.printable_quoted _
  case h_2 =>
    generalize t.value = v at h
    cases v with
    | text text =>
      cases h
      exact Text.printable_quoted text
    | payload p =>
      cases h
      exact Text.printable_quoted p.pack
    | stray v => exact v.printable_shown h

/-- The classes of nodes that hold a text have names. -/
lemma Style.isName_className (style : Style) : style.className.IsName := by
  cases style <;> exact Text.isName_of_ascii (by decide)

/-- The classes of lists have names. -/
lemma ListStyle.isName_className (style : ListStyle) : style.className.IsName := by
  cases style <;> exact Text.isName_of_ascii (by decide)

/-- The classes of items have names. -/
lemma Entry.isName_className (e : Entry) : e.className.IsName := by
  unfold className
  split <;> exact Text.isName_of_ascii (by decide)

/-- Every class of nodes that has a meaning has a name. -/
lemma Content.isName_className {content : Content}
    (h : ∀ name s, content = .foreign name s → name.IsName) : content.className.IsName := by
  cases content with
  | styled style s => exact style.isName_className
  | header level s => exact Text.isName_of_ascii (s := "Header".toList) (by decide)
  | codeBlock language code => exact Text.isName_of_ascii (s := "CodeBlock".toList) (by decide)
  | link s url => exact Text.isName_of_ascii (s := "Link".toList) (by decide)
  | image alt source => exact Text.isName_of_ascii (s := "Image".toList) (by decide)
  | list style items => exact style.isName_className
  | item entry => exact entry.isName_className
  | lineBreak => exact Text.isName_of_ascii (s := "LineBreak".toList) (by decide)
  | foreign name s => exact h name s rfl

/-- What is printable is so in parentheses. -/
lemma Text.Printable.enclosed {s : Text} (h : s.Printable) : Text.Printable ('(' :: s ++ [')']) :=
  .append (.cons (isPrintable_of_ascii rfl) h) (printable_of_ascii rfl)

/-- The line of an item is the name of its class, and then something printable. -/
lemma Entry.exists_listed (e : Entry) : ∃ rest : Text, e.listed = e.className ++ rest ∧ rest.Printable := by
  have text := Text.printable_quoted e.text
  unfold listed
  split
  case h_1 => exact ⟨_, List.append_assoc .., text.enclosed⟩
  case h_2 ticked _ =>
    refine ⟨" [".toList ++ (if ticked then 'x' else ' ') :: "] ".toList ++ e.text.quoted, by simp, ?_⟩
    cases ticked <;> exact (Text.printable_of_ascii rfl).append text

/-- The line of a node is the name of its class, and then something printable. -/
lemma Content.exists_listed {content : Content} {s : Text} (h : content.listed = .ok s) :
    ∃ rest : Text, s = content.className ++ rest ∧ rest.Printable := by
  have space : Text.isPrintable ' ' = true := Text.isPrintable_of_ascii rfl
  have pair (s t : Text) : Text.Printable (s.quoted ++ " -> ".toList ++ t.quoted) :=
    ((Text.printable_quoted s).append (Text.printable_of_ascii rfl)).append (Text.printable_quoted t)
  cases content with
  | header level text =>
    rw [listed] at h
    obtain ⟨number, written, rfl⟩ := Except.map_eq_ok.1 h
    refine ⟨" level=".toList ++ number ++ ' ' :: text.quoted, by simp, ?_⟩
    apply Text.Printable.append
    · exact (Text.printable_of_ascii rfl).append (Text.printable_of_written written)
    · exact .cons space (Text.printable_quoted text)
  | styled style text =>
    cases h
    exact ⟨_, List.append_assoc .., (Text.printable_quoted text).enclosed⟩
  | codeBlock language code =>
    cases h
    refine ⟨" language=".toList ++ language.quoted ++ ' ' :: code.quoted, by simp, ?_⟩
    apply Text.Printable.append
    · exact (Text.printable_of_ascii rfl).append (Text.printable_quoted language)
    · exact .cons space (Text.printable_quoted code)
  | link text target | image text target =>
    cases h
    exact ⟨_, by simp, (pair text target).enclosed⟩
  | list style items | lineBreak =>
    cases h
    exact ⟨[], (List.append_nil _).symm, nofun⟩
  | item entry =>
    cases h
    exact entry.exists_listed
  | foreign name text =>
    cases h
    exact ⟨_, List.append_assoc .., (Text.printable_quoted text).enclosed⟩

namespace Listing

/-- The lines that are written are those before the first one that cannot be. -/
lemma write_lines (lines : List (Except Text.Unwritable Text)) :
    (write lines).lines.map .ok = lines.takeWhile Except.isOk := by
  induction lines with
  | nil => rfl
  | cons line rest ih =>
    cases line with
    | error reason => rfl
    | ok line => rw [write, List.map_cons, ih, List.takeWhile_cons_of_pos rfl]

/-- Writing goes on to the end if each of the lines can be written. -/
lemma write_failure (lines : List (Except Text.Unwritable Text)) :
    (write lines).failure = none ↔ ∀ line ∈ lines, line.isOk = true := by
  induction lines with
  | nil => simp [write]
  | cons line rest ih =>
    cases line with
    | error reason => simp [write, Except.isOk, Except.toBool]
    | ok line => simp [write, ih, Except.isOk, Except.toBool]

/-- Lines that can be written are written, and they come apart again if they are printable. -/
lemma write_inLines {lines : List (Except Text.Unwritable Text)}
    (h : ∀ line, .ok line ∈ lines → line.Printable) :
    Text.InLines (Text.ofLines (write lines).lines) (write lines).lines := by
  apply Text.inLines_ofLines
  intro line member
  have written : .ok line ∈ lines.takeWhile Except.isOk := by
    rw [← write_lines]
    exact List.mem_map_of_mem member
  exact h line (List.takeWhile_subset _ written)

end Listing

/-- What has a line in the listing of a document. -/
inductive Part where
  | document
  | node (node : Node)
  | item (item : Item)
  deriving DecidableEq, Repr

namespace Part

/-- How far below the document the part stands. -/
def depth : Part → Nat
  | .document => 0
  | .node _ => 1
  | .item _ => 2

/-- What the line says of the part. -/
def label : Part → Except Text.Unwritable Text
  | .document => .ok "Document".toList
  | .node n => n.content.listed
  | .item i => .ok i.entry.listed

/-- The line of the part. -/
def line (part : Part) : Except Text.Unwritable Text :=
  part.label.map (indented part.depth)

/-- The level of a header has few enough digits to be written. No other part has a number. -/
def isShort : Part → Bool
  | .node ⟨.header level _, _⟩ => Text.isShort level
  | _ => true

/-- A part has a line exactly if its number has few enough digits. -/
lemma line_isOk (part : Part) : part.line.isOk = part.isShort := by
  rw [line, Except.map_isOk]
  obtain _ | ⟨content, span⟩ | item := part
  · rfl
  · cases content with
    | header level text =>
      rw [label, Content.listed, Except.map_isOk]
      exact Text.written_isOk level
    | _ => rfl
  · rfl

/-- What a line says of a part begins with a name, and what follows is printable. -/
def Named (part : Part) : Prop :=
  ∀ label, part.label = .ok label →
    ∃ name rest : Text, label = name ++ rest ∧ name.IsName ∧ rest.Printable

/-- A line is printable and has two spaces for each step below the document. -/
lemma Named.line {part : Part} {line : Text} (h : part.Named) (written : part.line = .ok line) :
    line.Printable ∧ line.indentation = 2 * part.depth := by
  obtain ⟨label, told, rfl⟩ := Except.map_eq_ok.1 written
  obtain ⟨name, rest, rfl, named, printable⟩ := h label told
  refine ⟨?_, Text.indentation_indented part.depth named rest⟩
  apply Text.Printable.append
  · exact Text.printable_replicate _ (Text.isPrintable_of_ascii rfl)
  · exact named.printable.append printable

end Part

namespace Document

/-- The document, and then its nodes in order, each of them with its items in order behind it. -/
def parts (document : Document) : List Part :=
  .document :: document.children.flatMap fun node => .node node :: node.content.items.map .item

/-- Nodes of classes that have no meaning here are of classes with names. All other nodes are anyway. -/
def Named (document : Document) : Prop :=
  ∀ node ∈ document.children, ∀ name s, node.content = .foreign name s → name.IsName

/-- The lines of a document are those of its parts. -/
lemma listing_eq (document : Document) : document.listing = .write (document.parts.map Part.line) := by
  have node (n : Node) : n.listed = (Part.node n :: n.content.items.map .item).map Part.line := by
    rw [List.map_cons, List.map_map]
    rfl
  rw [parts, List.map_cons, List.map_flatMap, listing]
  exact congrArg (fun rest => Listing.write (_ :: rest)) (List.flatMap_congr fun n _ => node n)

/-- Each part of a document begins its line with a name. -/
lemma Named.parts {document : Document} (h : document.Named) : ∀ part ∈ document.parts, part.Named := by
  intro part member label told
  rcases List.mem_cons.1 member with rfl | inside
  · cases told
    exact ⟨"Document".toList, [], rfl, Text.isName_of_ascii (by decide), nofun⟩
  obtain ⟨n, child, here⟩ := List.mem_flatMap.1 inside
  rcases List.mem_cons.1 here with rfl | listed
  · obtain ⟨rest, rfl, printable⟩ := Content.exists_listed told
    exact ⟨_, rest, rfl, Content.isName_className (h n child), printable⟩
  · obtain ⟨i, -, rfl⟩ := List.mem_map.1 listed
    cases told
    obtain ⟨rest, label, printable⟩ := i.entry.exists_listed
    exact ⟨_, rest, label, i.entry.isName_className, printable⟩

end Document

/-- The kinds of the tokens of a source have names. -/
lemma tokenize_isName (strict : Bool) (source : Text) :
    ∀ t ∈ (tokenize strict source).tokens, t.kind.name.IsName := by
  have lenient : ∀ t ∈ (tokenize false source).tokens, t.kind.name.IsName := by
    obtain ⟨ts, p, tokens, order⟩ := tokenize_orderly source
    rw [tokens]
    intro t member
    rcases List.mem_append.1 member with here | last
    · have known := (order.wellMade t here).isKnown
      refine Kind.isName_name fun name foreign => ?_
      rw [foreign] at known
      cases known
    · obtain rfl := List.mem_singleton.1 last
      exact Kind.isName_name nofun
  cases strict with
  | false => exact lenient
  | true => exact fun t member => lenient t (tokenize_strict_subset source member)

/-- A position of a source that is not too long counts lines and columns that have few enough digits. -/
lemma Position.Marks.isShort {source : Text} {p : Position} (h : p.Marks source)
    (short : (source.length : Int) ≤ Text.indexLimit) :
    Text.isShort p.line = true ∧ Text.isShort p.column = true := by
  obtain ⟨nonneg, le, line, k, start, column⟩ := h
  have lines : (source.take p.offset.toNat).count '\n' ≤ source.length :=
    List.count_le_length.trans (List.length_take_le' _ _)
  have behind := start.le
  constructor
  · apply Text.isShort_of_le <;> omega
  · apply Text.isShort_of_le <;> omega

/-- The value of a token of a source that is not too long can be written: the level of a header counts
characters of the source. -/
lemma Token.exists_listedValue {t : Token} (clean : t.lexeme.Clean)
    (short : (t.raw.length : Int) ≤ Text.indexLimit) : ∃ s, t.listedValue = .ok s := by
  obtain ⟨kind, value, raw, span⟩ := t
  cases clean with
  | @header level s _ counts =>
    have few : (raw.takeWhile (· == '#')).length ≤ raw.length := (List.takeWhile_sublist _).length_le
    dsimp only at counts short
    have written := Text.written_of_isShort (n := level) (Text.isShort_of_le (by omega) (by omega))
    refine ⟨Text.quoted (Text.ofInt level ++ ':' :: s), ?_⟩
    simp only [listedValue, written, Except.map]
  | _ => exact ⟨_, rfl⟩

/-- Every token of a source that is not too long has a line, and the line is printable. -/
lemma tokenize_listed {source : Text} (short : (source.length : Int) ≤ Text.indexLimit) (strict : Bool)
    {t : Token} (member : t ∈ (tokenize strict source).tokens) :
    ∃ line : Text, t.listed = .ok line ∧ line.Printable := by
  have known := (tokenize_isName strict source t member).printable
  have lenient : t ∈ (tokenize false source).tokens := by
    cases strict with
    | false => exact member
    | true => exact tokenize_strict_subset source member
  have covers := tokenize_covers source lenient
  have marks := covers.start_marks.isShort short
  have counted : (t.raw.length : Int) ≤ Text.indexLimit := by
    obtain ⟨before, after, rfl, -⟩ := covers
    simp only [List.length_append] at short
    omega
  have clean := tokenize_lexemes Piece.read_clean .ending source t lenient
  obtain ⟨value, told⟩ := t.exists_listedValue clean counted
  have space : Text.isPrintable ' ' = true := Text.isPrintable_of_ascii rfl
  have colon : Text.isPrintable ':' = true := Text.isPrintable_of_ascii rfl
  have line := Text.printable_ofInt t.span.start.line
  have column := Text.printable_ofInt t.span.start.column
  refine ⟨_, ?_, ((line.append (.cons colon column)).append (.cons space known)).append
    (.cons space (Token.printable_listedValue told))⟩
  rw [Token.listed, Text.written_of_isShort marks.1, Text.written_of_isShort marks.2, told]
  rfl

/-- The listing of the tokens of a source consists of one line for each token but the ending one, in the order
of the tokens; a source has no more characters than can be counted. The listing of a document consists of one
line for each part of the document, in the order of the parts, up to the first header whose level has too many
digits, and it is complete if there is none. The line of a part is indented by two spaces for each step that the
part stands below the document. Nothing in the texts of the source breaks any of these lines. -/
theorem listings_in_lines :
    (∀ strict source, (source.length : Int) ≤ Text.indexLimit →
      ∃ lines, Token.listing (tokenize strict source).tokens = ⟨lines, none⟩ ∧
        lines.map .ok =
          ((tokenize strict source).tokens.filter fun t => t.kind ≠ .ending).map Token.listed ∧
        Text.InLines (Text.ofLines lines) lines) ∧
    ∀ document : Document, document.Named →
      document.listing.lines.map .ok = (document.parts.takeWhile Part.isShort).map Part.line ∧
      (document.listing.failure = none ↔ ∀ part ∈ document.parts, part.isShort = true) ∧
      Text.InLines (Text.ofLines document.listing.lines) document.listing.lines ∧
      ∀ part ∈ document.parts, ∀ line, part.line = .ok line → line.indentation = 2 * part.depth := by
  refine ⟨fun strict source short => ?_, fun document named => ⟨?_, ?_, ?_, fun part member line written => ?_⟩⟩
  · have listed : ∀ t ∈ (tokenize strict source).tokens.filter fun t => t.kind ≠ .ending,
        ∃ line : Text, t.listed = .ok line ∧ line.Printable :=
      fun t member => tokenize_listed short strict (List.mem_filter.1 member).1
    rw [Token.listing]
    generalize ((tokenize strict source).tokens.filter fun t => t.kind ≠ .ending) = ts at *
    have all : ∀ line ∈ ts.map Token.listed, line.isOk = true := by
      rw [List.forall_mem_map]
      intro t member
      obtain ⟨line, written, -⟩ := listed t member
      rw [written]
      rfl
    refine ⟨_, congrArg (Listing.mk _) ((Listing.write_failure _).2 all), ?_, Listing.write_inLines ?_⟩
    · rw [Listing.write_lines]
      exact List.takeWhile_eq_self_iff.2 all
    · intro line member
      obtain ⟨t, kept, written⟩ := List.mem_map.1 member
      obtain ⟨other, written', printable⟩ := listed t kept
      cases written.symm.trans written'
      exact printable
  · rw [document.listing_eq, Listing.write_lines, List.takeWhile_map]
    exact congrArg _ (congrArg (List.takeWhile · _) (funext Part.line_isOk))
  · rw [document.listing_eq, Listing.write_failure, List.forall_mem_map]
    simp only [Part.line_isOk]
  · rw [document.listing_eq]
    apply Listing.write_inLines
    intro line member
    obtain ⟨part, known, written⟩ := List.mem_map.1 member
    exact ((named.parts part known).line written).1
  · exact ((named.parts part member).line written).2

/-- Not every listing is as it should be: the name of a class may break a line, and a level may have too many
digits to be written. -/
theorem not_all_listings_in_lines :
    (∃ document : Document, document.children.map Node.content = [.foreign "A\nB".toList ['x']] ∧
      ¬ Text.InLines (Text.ofLines document.listing.lines) document.listing.lines) ∧
    ∃ document : Document, document.children.map Node.content = [.header (Nat.pow 10 4300) ['x']] ∧
      document.listing = ⟨["Document".toList], some .number⟩ := by
  let document (content : Content) : Document := ⟨[⟨content, .point .origin⟩], .point .origin⟩
  refine ⟨⟨document (.foreign "A\nB".toList ['x']), rfl, fun lines => ?_⟩,
    document (.header (Nat.pow 10 4300) ['x']), rfl, by decide +kernel⟩
  have cut := lines.cut
  revert cut
  decide +kernel

/-- A header and a link whose texts hold what may end a line; then two items of this sort, a node of a class
without a meaning, and a header whose level has too many digits. -/
theorem listings_in_lines_items :
    (("# a\u2028b\n[c\u000c](d')".toList.length : Int) ≤ Text.indexLimit ∧
      ∃ lines, Token.listing (tokenize false "# a\u2028b\n[c\u000c](d')".toList).tokens = ⟨lines, none⟩ ∧
        lines = ["1:1 HEADER '1:a\\u2028b'".toList, "2:1 LINK \"c\\x0c|d'\"".toList] ∧
        Text.InLines (Text.ofLines lines) lines) ∧
    ∃ document : Document, document.Named ∧
      document.children.map (fun node => node.content.items.length) = [2, 0, 0] ∧
      document.listing.lines = ["Document".toList, "  UnorderedList".toList,
        "    ListItem('a\\r\\nb\\x0c')".toList, "    TodoItem [x] \"\\u2028'\"".toList,
        "  Widget('\\x85')".toList] ∧
      document.listing.failure ≠ none ∧
      Text.InLines (Text.ofLines document.listing.lines) document.listing.lines ∧
      ∃ part ∈ document.parts, ∃ line, part.line = .ok line ∧ line.indentation = 4 := by
  constructor
  · have short : ("# a\u2028b\n[c\u000c](d')".toList.length : Int) ≤ Text.indexLimit := by decide
    obtain ⟨lines, listing, -, cut⟩ := listings_in_lines.1 false _ short
    have told : (Token.listing (tokenize false "# a\u2028b\n[c\u000c](d')".toList).tokens).lines =
        ["1:1 HEADER '1:a\\u2028b'".toList, "2:1 LINK \"c\\x0c|d'\"".toList] := by decide +kernel
    exact ⟨short, lines, listing, (congrArg Listing.lines listing).symm.trans told, cut⟩
  · let span := Span.point .origin
    let first : Item := ⟨⟨"a\r\nb\u000c".toList, none⟩, span⟩
    let second : Item := ⟨⟨"\u2028'".toList, some true⟩, span⟩
    let document : Document :=
      ⟨[⟨.list .unordered [first, second], span⟩, ⟨.foreign "Widget".toList "\u0085".toList, span⟩,
        ⟨.header (Nat.pow 10 4300) ['x'], span⟩], span⟩
    have named : document.Named := by
      intro node member name s foreign
      simp only [document, List.mem_cons, List.not_mem_nil, or_false] at member
      rcases member with rfl | rfl | rfl
      · cases foreign
      · cases foreign
        exact Text.isName_of_ascii (by decide)
      · cases foreign
    obtain ⟨-, -, lines, indentation⟩ := listings_in_lines.2 document named
    have inside : Part.item second ∈ document.parts := by decide +kernel
    have written : (Part.item second).line = .ok (indented 2 second.entry.listed) := rfl
    exact ⟨document, named, rfl, by decide +kernel, by decide +kernel, lines, _, inside, _, written,
      indentation _ inside _ written⟩

end Marktex
