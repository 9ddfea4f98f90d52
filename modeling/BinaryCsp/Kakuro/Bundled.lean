/-!
# Bundled grids

Five grids, from the smallest to the largest, by name.
-/

namespace BinaryCsp.Kakuro

def given4x3 : String := "\n".intercalate [
  "* * * 6\\ 3\\",
  "* 4\\ 3\\3 _ _",
  "\\10 _ _ _ _",
  "\\3 _ _ * *"]

def given5x7 : String := "\n".intercalate [
  "* 17\\ 28\\ * 42\\ 22\\",
  "\\9 _ _ 31\\14 _ _",
  "\\20 _ _ _ _ _",
  "* \\30 _ _ _ _",
  "* 22\\24 _ _ _ *",
  "\\25 _ _ _ _ 11\\",
  "\\20 _ _ _ _ _",
  "\\14 _ _ \\17 _ _"]

def intermediate6x6 : String := "\n".intercalate [
  "* 11\\ 16\\ 30\\ * 24\\ 11\\",
  "\\24 _ _ _ \\9 _ _",
  "\\16 _ _ _ 14\\17 _ _",
  "* * 22\\20 _ _ _ *",
  "* 3\\24 _ _ _ 10\\ 13\\",
  "\\7 _ _ \\19 _ _ _",
  "\\11 _ _ \\7 _ _ _"]

def hard8x8 : String := "\n".intercalate [
  "* 28\\ 15\\ * 9\\ 15\\ * 9\\ 12\\",
  "\\10 _ _ 15\\6 _ _ 10\\4 _ _",
  "\\38 _ _ _ _ _ _ _ _",
  "\\17 _ _ _ \\4 _ _ 27\\ *",
  "\\13 _ _ 7\\ 17\\19 _ _ _ 15\\",
  "* \\8 _ _ _ * 16\\3 _ _",
  "* 11\\ 4\\4 _ _ 3\\24 _ _ _",
  "\\44 _ _ _ _ _ _ _ _",
  "\\3 _ _ \\6 _ _ \\10 _ _"]

def given14x14 : String := "\n".intercalate [
  "* * * * * 4\\ 24\\ 11\\ * * * 11\\ 17\\ * *",
  "* * * 17\\ 11\\12 _ _ _ * * 24\\10 _ _ 11\\ *",
  "* 4\\ 16\\26 _ _ _ _ _ * \\20 _ _ _ _ 16\\",
  "\\20 _ _ _ _ 24\\13 _ _ 16\\ \\12 _ _ 23\\10 _ _",
  "\\10 _ _ 24\\12 _ _ 16\\5 _ _ 16\\30 _ _ _ _ _",
  "* * 3\\26 _ _ _ _ \\12 _ _ 4\\ 16\\14 _ _ *",
  "* \\8 _ _ \\15 _ _ 34\\26 _ _ _ _ _ * *",
  "* \\11 _ _ 3\\ 17\\ \\14 _ _ \\8 _ _ 7\\ 17\\ *",
  "* * * 23\\10 _ _ 3\\9 _ _ 4\\ 23\\ \\13 _ _ *",
  "* * 10\\26 _ _ _ _ _ \\7 _ _ 30\\9 _ _ *",
  "* 17\\11 _ _ 11\\ 24\\8 _ _ 11\\21 _ _ _ _ 16\\ 17\\",
  "\\29 _ _ _ _ _ \\7 _ _ 23\\14 _ _ 3\\17 _ _",
  "\\10 _ _ 3\\10 _ _ * \\8 _ _ 4\\25 _ _ _ _",
  "* \\16 _ _ _ _ * \\23 _ _ _ _ _ * *",
  "* * \\6 _ _ * * \\15 _ _ _ * * * *"]

/-- The bundled grids with their names. -/
def bundled : List (String × String) := [
  ("given-4x3", given4x3),
  ("given-5x7", given5x7),
  ("intermediate-6x6", intermediate6x6),
  ("hard-8x8", hard8x8),
  ("given-14x14", given14x14)]

end BinaryCsp.Kakuro
