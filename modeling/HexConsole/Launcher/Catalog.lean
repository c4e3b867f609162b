/-! # The catalog

The catalog lists the games that come with the console. A game is chosen by its place in the
list and lies in the directory of the games under its own name.
-/

namespace HexConsole.Launcher

/-- The names of the games. -/
def catalog : List String := [
  "15PUZZLE", "BLINKY", "BLITZ", "BRIX", "CONNECT4", "GUESS", "HIDDEN", "INVADERS", "KALEID",
  "MAZE", "MERLIN", "MISSILE", "PONG", "PONG2", "PUZZLE", "SYZYGY", "TANK", "TETRIS", "TICTAC",
  "UFO", "VBRIX", "VERS", "WIPEOFF"]

/-- The games with their places, in one line. -/
def catalogLine : String :=
  ", ".intercalate (catalog.zipIdx.map fun (name, place) => toString place ++ ". " ++ name)

/-- The path of a name in a directory. -/
def joinPath (dir name : String) : String :=
  if dir.isEmpty || dir.endsWith "/" then dir ++ name else dir ++ "/" ++ name

/-- The path of the game at a place of the catalog. -/
def gamePath? (dir : String) (place : Nat) : Option String :=
  catalog[place]?.map (joinPath dir)

/-- The sentence for a place without a game. -/
def unknownGameText (place : Nat) : String :=
  "no game with id " ++ toString place ++ "; available games are: " ++ catalogLine

end HexConsole.Launcher
