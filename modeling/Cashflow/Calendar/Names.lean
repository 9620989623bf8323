/-!
# Names of months and weekdays

All names are in capitals. A month has a short name of three letters and longer ones
(`monthNames`); `monthNamed?` knows it by any of them and `month?` by the short one alone.
-/

namespace Cashflow

/-- The names of each month, the short one first. -/
def monthNames : List (List String) :=
  [["JAN", "JANUARY"], ["FEB", "FEBRUARY"], ["MAR", "MARCH"], ["APR", "APRIL"], ["MAY"],
    ["JUN", "JUNE"], ["JUL", "JULY"], ["AUG", "AUGUST"], ["SEP", "SEPT", "SEPTEMBER"],
    ["OCT", "OCTOBER"], ["NOV", "NOVEMBER"], ["DEC", "DECEMBER"]]

/-- The month of a short name, counted from zero. -/
def month? (name : String) : Option (Fin 12) :=
  (List.finRange 12).find? fun i => (monthNames[i.val]?.bind List.head?) = some name

/-- The month of a name of any length, counted from zero. -/
def monthNamed? (name : String) : Option (Fin 12) :=
  (List.finRange 12).find? fun i => (monthNames[i.val]?).any fun names => names.contains name

def weekdayNames : List String :=
  ["MON", "MONDAY", "TUE", "TUESDAY", "WED", "WEDNESDAY", "THU", "THURSDAY", "FRI", "FRIDAY",
    "SAT", "SATURDAY", "SUN", "SUNDAY"]

end Cashflow
