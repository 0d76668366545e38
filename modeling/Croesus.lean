import Croesus.Firestore.ResourcePath
import Croesus.FirstViewController.Arrival
import Croesus.FirstViewController.Atomicity
import Croesus.FirstViewController.Listed
import Croesus.FirstViewController.Logged
import Croesus.FirstViewController.Loss
import Croesus.FirstViewController.Reported
import Croesus.FirstViewController.SurveyQuestions
import Croesus.Managers.Collections
import Croesus.Managers.Refusals
import Croesus.Managers.Responses
import Croesus.ResearchKit.Completion
import Croesus.Session.Admission
import Croesus.Session.Completions
import Croesus.Session.Identity
import Croesus.Session.Integrity
import Croesus.Session.Login
import Croesus.Session.Photos
import Croesus.Session.Provenance
import Croesus.Session.Registration
