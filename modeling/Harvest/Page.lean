import Harvest.Config.Record

namespace Harvest

open Config

structure Page where
  data : Value
  status : Int
  headers : List (String × String)

namespace Page

def build (ms : Fields) : Checked Page :=
  Page.mk <$> Field.optional ms "data" .null Field.any
    <*> Field.optional ms "status" 200 Field.integer
    <*> Field.optional ms "headers" [] Field.textObject

def read : Value → Checked (Given Page) :=
  Given.read .page build

def members (p : Page) : Fields :=
  [("data", p.data), ("status", .int p.status),
   ("headers", .obj (p.headers.map fun h => (h.1, .str h.2)))]

def toValue (p : Page) : Value :=
  .obj p.members

end Page

end Harvest
