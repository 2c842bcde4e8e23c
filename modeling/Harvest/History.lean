import Harvest.Call

namespace Harvest

structure History where
  context : Value
  calls : List Call

def History.pagesFetched (h : History) : Nat :=
  h.calls.length

end Harvest
