import RelTrace.Json.Token

/-!
# JSON texts as far as they can be read

The tokens of a text are put together to a tree that goes as far as the text is JSON. Where it stops
being JSON the tree has a flaw in place of a value, or of the bracket that should follow. Whoever
reads the tree from left to right meets the flaw at its place in the text, after all that stands
before it.

## Main definitions

* `Json.Draft`: the tree.
* `Json.Building`: a tree of which some tokens have been read.
* `Json.draft`: the tree of a text, and whether more follows it.
-/

namespace RelTrace.Json

/-- A JSON value, or the part of one that was read before a flaw. -/
inductive Draft where
  | null
  | bool (b : Bool)
  | number (n : Option Number)
  | string (s : Option String)
  /-- The items, and the flaw after the last one if the list does not end. -/
  | list (items : List Draft) (stop : Option Flaw)
  /-- The entries, and the flaw after the last one if the object does not end. -/
  | object (entries : List (Option String × Draft)) (stop : Option Flaw)
  /-- There is no value here. -/
  | broken (f : Flaw)

/-- A list or an object that is still open, with its contents in reverse. -/
inductive Frame where
  | list (items : List Draft)
  | object (entries : List (Option String × Draft)) (key : Option String)

/-- What may come next. -/
inductive Spot where
  /-- A value. -/
  | value
  /-- The first item of a list, or its end. -/
  | firstItem
  /-- The first key of an object, or its end; or only a key, after a comma. -/
  | key (entries : List (Option String × Draft)) (first : Bool)
  /-- The colon after a key. -/
  | colon (entries : List (Option String × Draft)) (key : Option String)
  /-- What follows a value. -/
  | after (d : Draft)
  /-- Nothing that follows matters. -/
  | done (d : Draft) (trailing : Bool)

/-- A tree of which some tokens have been read. -/
structure Building where
  spot : Spot
  /-- The open lists and objects, the innermost first. -/
  frames : List Frame

namespace Frame

/-- The list or object with one more value, closed or flawed. -/
def fill (d : Draft) (stop : Option Flaw) : Frame → Draft
  | list items => .list (d :: items).reverse stop
  | object entries key => .object ((key, d) :: entries).reverse stop

end Frame

namespace Building

/-- Nothing has been read. -/
def start : Building := ⟨.value, []⟩

/-- A draft that ends in a flaw ends everything around it. -/
def abandon (d : Draft) (frames : List Frame) : Building :=
  ⟨.done (frames.foldl (fun d frame => frame.fill d none) d) false, frames⟩

/-- A value starts with a token. -/
def stepValue (frames : List Frame) : Token → Building
  | .null => ⟨.after .null, frames⟩
  | .bool b => ⟨.after (.bool b), frames⟩
  | .number n => ⟨.after (.number n), frames⟩
  | .string s => ⟨.after (.string s), frames⟩
  | .openList => ⟨.firstItem, .list [] :: frames⟩
  | .openObject => ⟨.key [] true, frames⟩
  | .flaw _ f => abandon (.broken f) frames
  | _ => abandon (.broken (.both .malformed)) frames

/-- A token follows a value. -/
def stepAfter (d : Draft) (frames : List Frame) (t : Token) : Building :=
  match frames with
  | [] => ⟨.done d true, []⟩
  | .list items :: frames =>
    match t with
    | .comma => ⟨.value, .list (d :: items) :: frames⟩
    | .closeList => ⟨.after ((Frame.list items).fill d none), frames⟩
    | _ => abandon ((Frame.list items).fill d (some (.both .malformed))) frames
  | .object entries key :: frames =>
    match t with
    | .comma => ⟨.key ((key, d) :: entries) false, frames⟩
    | .closeObject => ⟨.after ((Frame.object entries key).fill d none), frames⟩
    | _ => abandon ((Frame.object entries key).fill d (some (.both .malformed))) frames

/-- Reads one more token. -/
def step (b : Building) (t : Token) : Building :=
  match b.spot with
  | .value => stepValue b.frames t
  | .firstItem =>
    match t, b.frames with
    | .closeList, _ :: frames => ⟨.after (.list [] none), frames⟩
    | _, _ => stepValue b.frames t
  | .key entries first =>
    match t with
    | .string s => ⟨.colon entries s, b.frames⟩
    | .flaw true f => abandon (.object entries.reverse (some f)) b.frames
    | .closeObject =>
      if first then ⟨.after (.object [] none), b.frames⟩
      else abandon (.object entries.reverse (some (.both .malformed))) b.frames
    | _ => abandon (.object entries.reverse (some (.both .malformed))) b.frames
  | .colon entries key =>
    match t with
    | .colon => ⟨.value, .object entries key :: b.frames⟩
    | _ => abandon ((Frame.object entries key).fill (.broken (.both .malformed)) none) b.frames
  | .after d => stepAfter d b.frames t
  | .done _ _ => b

/-- The flaw of a text that ends too soon. -/
def cut : Flaw := .both .truncated

/-- The tree if the tokens end here, and whether more followed it. -/
def finish (b : Building) : Draft × Bool :=
  let close (d : Draft) (frames : List Frame) : Draft × Bool :=
    (frames.foldl (fun d frame => frame.fill d none) d, false)
  match b.spot, b.frames with
  | .value, frames => close (.broken cut) frames
  | .firstItem, frames => close (.list [] (some cut)) (frames.drop 1)
  | .key entries _, frames => close (.object entries.reverse (some cut)) frames
  | .colon entries key, frames => close ((Frame.object entries key).fill (.broken cut) none) frames
  | .after d, [] => (d, false)
  | .after d, frame :: frames => close (frame.fill d (some cut)) frames
  | .done d trailing, _ => (d, trailing)

end Building

/-- The tree of a text, and whether more follows it. -/
def draft (cs : List Char) : Draft × Bool := ((tokens cs).foldl Building.step .start).finish

end RelTrace.Json
