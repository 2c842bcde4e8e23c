import Harvest.Config.Record

namespace Harvest

open Config

structure Transformation where
  root : Option String
  single : Bool
  keep : Option (List String)
  drop : Option (List String)
  nestUnder : Option String
  adjust : Option Hook

namespace Transformation

def build (ms : Fields) : Checked Transformation :=
  Transformation.mk <$> Field.optional ms "root" none (Field.orNull Field.text)
    <*> Field.optional ms "single" false Field.flag
    <*> Field.optional ms "pick" none (Field.orNull Field.textList)
    <*> Field.optional ms "omit" none (Field.orNull Field.textList)
    <*> Field.optional ms "nest_under_field" none (Field.orNull Field.text)
    <*> Field.optional ms "adjust" none (Field.orNull Field.hook)

def members (t : Transformation) : Fields :=
  [("root", .ofOption .str t.root), ("single", .bool t.single),
   ("pick", .ofOption .strings t.keep), ("omit", .ofOption .strings t.drop),
   ("nest_under_field", .ofOption .str t.nestUnder), ("adjust", .ofOption .hook t.adjust)]

def read : Value → Checked (Given Transformation) :=
  Given.readClosed .transformation build

def plain : Given Transformation :=
  ⟨⟨none, false, none, none, none, none⟩, .transformation, [], []⟩

end Transformation

end Harvest
